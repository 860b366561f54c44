import SearchOverlay.LocalNode
import SearchOverlay.Query

/-!
# Activities

An activity of a member is a walk through the overlay or a round of gossip, given as data:
it is done, or its next step is to look at the clock, a pause, a command to the local node, or
a query to a peer, and what follows depends on the answer. Peers may answer as they like, and
other activities may act on the node between two steps.
-/

namespace SearchOverlay

inductive Activity (α : Type) where
  | done (a : α)
  /-- Looks at the clock, as often as it likes. -/
  | clock (next : Clock → Activity α)
  | pause (ms : Nat) (next : Unit → Activity α)
  | tell (command : Command) (next : command.Answer → Activity α)
  | dropMarker (next : Unit → Activity α)
  | ask (peer : Contact) (query : Query) (next : Except CallError query.Reply → Activity α)

namespace Activity

def bind {α β : Type} : Activity α → (α → Activity β) → Activity β
  | done a, f => f a
  | clock k, f => clock fun t => (k t).bind f
  | pause ms k, f => pause ms fun u => (k u).bind f
  | tell c k, f => tell c fun a => (k a).bind f
  | dropMarker k, f => dropMarker fun u => (k u).bind f
  | ask p q k, f => ask p q fun r => (k r).bind f

instance : Monad Activity where
  pure := done
  bind := bind

def readClock : Activity Time := clock fun c => done c.now

def sleep (ms : Nat) : Activity Unit := pause ms done

def command (c : Command) : Activity c.Answer := tell c done

def query (peer : Contact) (q : Query) : Activity (Except CallError q.Reply) := ask peer q done

theorem bind_done {α : Type} (x : Activity α) : x.bind done = x := by
  induction x with
  | done a => rfl
  | clock k ih => simp only [bind]; congr 1; funext t; exact ih t
  | pause ms k ih => simp only [bind]; congr 1; funext u; exact ih u
  | tell c k ih => simp only [bind]; congr 1; funext a; exact ih a
  | dropMarker k ih => simp only [bind]; congr 1; funext u; exact ih u
  | ask p q k ih => simp only [bind]; congr 1; funext r; exact ih r

theorem bind_assoc {α β γ : Type} (x : Activity α) (f : α → Activity β) (g : β → Activity γ) :
    (x.bind f).bind g = x.bind fun a => (f a).bind g := by
  induction x with
  | done a => rfl
  | clock k ih => simp only [bind]; congr 1; funext t; exact ih t
  | pause ms k ih => simp only [bind]; congr 1; funext u; exact ih u
  | tell c k ih => simp only [bind]; congr 1; funext a; exact ih a
  | dropMarker k ih => simp only [bind]; congr 1; funext u; exact ih u
  | ask p q k ih => simp only [bind]; congr 1; funext r; exact ih r

instance : LawfulMonad Activity := LawfulMonad.mk' Activity bind_done (fun _ _ => rfl) bind_assoc

end Activity

/-- The name of the file that marks a node that has not finished its first sync. -/
def markerName : String := "first-sync"

def LocalNode.dropMarker (n : LocalNode) : LocalNode :=
  { n with files := n.files.remove markerName }

/-- What peers do: given a state of the world outside, the answer to a query and the state
after it. -/
abbrev Peers (σ : Type) := σ → (peer : Contact) → (q : Query) → Except CallError q.Reply × σ

/-- The world outside a node: what peers do, and what the clock shows in the course of one
step. -/
structure Outside (σ : Type) where
  answer : Peers σ
  look : σ → Clock × σ

def Peers.at {σ : Type} (now : Time) (peers : Peers σ) : Outside σ := ⟨peers, fun w => (now, w)⟩

/-- Runs an activity with nobody else acting on the node. -/
def Activity.run {α σ : Type} (o : Outside σ) : Activity α → LocalNode → σ → α × LocalNode × σ
  | done a, n, w => (a, n, w)
  | clock k, n, w =>
    let (shown, w) := o.look w
    (k shown).run o n w
  | pause _ k, n, w => (k ()).run o n w
  | tell c k, n, w =>
    let (shown, w) := o.look w
    let (a, n) := n.perform shown c
    (k a).run o n w
  | dropMarker k, n, w => (k ()).run o n.dropMarker w
  | ask p q k, n, w =>
    let (r, w) := o.answer w p q
    (k r).run o n w

end SearchOverlay
