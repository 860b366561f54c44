import SearchOverlay.Activity
import SearchOverlay.Proofs.Bucket.Steps

/-!
# What activities ensure

`x.exchanges` are the queries in the course of a run of `x`, with their answers. `x.Ensures n Q`
says that the run of `x` from the node `n` ends as `Q` says, whatever the peers answer and
whatever the clock shows. There is one rule for each kind of step, so a statement about an
activity is proved along its text.
-/

namespace SearchOverlay

/-- A query to a peer and what came of it. -/
structure Exchange where
  peer : Contact
  query : Query
  answer : Except CallError query.Reply

namespace Exchange

/-- Whether the peer answered with a report that names the identity. -/
def names (id : Identity) : Exchange → Bool
  | ⟨_, .getPeers, .ok cs⟩ => (ids cs).contains id
  | _ => false

theorem names_report {id : Identity} {peer : Contact} {cs : List Contact} :
    names id ⟨peer, .getPeers, .ok cs⟩ ↔ id ∈ ids cs := List.contains_iff_mem

end Exchange

namespace Activity

variable {α β : Type}

/-- The exchanges of a run, in order. -/
def exchanges {σ : Type} (o : Outside σ) : Activity α → LocalNode → σ → List Exchange
  | done _, _, _ => []
  | clock k, n, w =>
    let (shown, w) := o.look w
    (k shown).exchanges o n w
  | pause _ k, n, w => (k ()).exchanges o n w
  | tell c k, n, w =>
    let (shown, w) := o.look w
    let (a, n) := n.perform shown c
    (k a).exchanges o n w
  | dropMarker k, n, w => (k ()).exchanges o n.dropMarker w
  | ask p q k, n, w =>
    let (r, w) := o.answer w p q
    ⟨p, q, r⟩ :: (k r).exchanges o n w

theorem run_bind {σ : Type} (o : Outside σ) (x : Activity α) (f : α → Activity β) (n : LocalNode)
    (w : σ) : (x.bind f).run o n w =
      (f (x.run o n w).1).run o (x.run o n w).2.1 (x.run o n w).2.2 := by
  induction x generalizing n w with
  | done a => rfl
  | clock k ih => exact ih _ n _
  | pause ms k ih => exact ih () n w
  | tell c k ih => exact ih _ _ _
  | dropMarker k ih => exact ih () _ w
  | ask p q k ih => exact ih _ n _

theorem exchanges_bind {σ : Type} (o : Outside σ) (x : Activity α) (f : α → Activity β)
    (n : LocalNode) (w : σ) : (x.bind f).exchanges o n w = x.exchanges o n w ++
      (f (x.run o n w).1).exchanges o (x.run o n w).2.1 (x.run o n w).2.2 := by
  induction x generalizing n w with
  | done a => rfl
  | clock k ih => exact ih _ n _
  | pause ms k ih => exact ih () n w
  | tell c k ih => exact ih _ _ _
  | dropMarker k ih => exact ih () _ w
  | ask p q k ih => exact congrArg (_ :: ·) (ih _ n _)

/-- However the run goes, it ends as `Q` says of the result, the node and the exchanges. -/
def Ensures (x : Activity α) (n : LocalNode) (Q : α → LocalNode → List Exchange → Prop) : Prop :=
  ∀ (σ : Type) (o : Outside σ) (w : σ), Q (x.run o n w).1 (x.run o n w).2.1 (x.exchanges o n w)

namespace Ensures

variable {n : LocalNode} {Q : α → LocalNode → List Exchange → Prop}

theorem imp {x : Activity α} {P : α → LocalNode → List Exchange → Prop} (h : x.Ensures n P)
    (hPQ : ∀ a n' xs, P a n' xs → Q a n' xs) : x.Ensures n Q :=
  fun σ o w => hPQ _ _ _ (h σ o w)

theorem done {a : α} (h : Q a n []) : (Activity.done a).Ensures n Q := fun _ _ _ => h

theorem clock {k : Clock → Activity α} (h : ∀ shown, (k shown).Ensures n Q) :
    (Activity.clock k).Ensures n Q := fun σ o w => h _ σ o (o.look w).2

theorem tell {c : Command} {k : c.Answer → Activity α}
    (h : ∀ shown : Clock, (k (n.perform shown c).1).Ensures (n.perform shown c).2 Q) :
    (Activity.tell c k).Ensures n Q := fun σ o w => h (o.look w).1 σ o (o.look w).2

theorem dropMarker {k : Unit → Activity α} (h : (k ()).Ensures n.dropMarker Q) :
    (Activity.dropMarker k).Ensures n Q := fun σ o w => h σ o w

theorem ask {p : Contact} {q : Query} {k : Except CallError q.Reply → Activity α}
    (h : ∀ r, (k r).Ensures n fun a n' xs => Q a n' (⟨p, q, r⟩ :: xs)) :
    (Activity.ask p q k).Ensures n Q := fun σ o w => h _ σ o (o.answer w p q).2

theorem bind {x : Activity β} {f : β → Activity α}
    (h : x.Ensures n fun b n' xs => (f b).Ensures n' fun a n'' ys => Q a n'' (xs ++ ys)) :
    (x >>= f).Ensures n Q := by
  intro σ o w
  show Q ((x.bind f).run o n w).1 ((x.bind f).run o n w).2.1 ((x.bind f).exchanges o n w)
  rw [run_bind, exchanges_bind]
  exact h σ o w σ o (x.run o n w).2.2

end Ensures

end Activity

theorem LocalNode.perform_of_running {n : LocalNode} (hn : n.stopped = false) (shown : Clock)
    (c : Command) : n.perform shown c = n.performRunning shown c := by
  rw [perform, hn]
  rfl

/-! ## Commands that leave the table alone -/

/-- Whether the command changes neither the routing table nor whether the node runs. -/
def Command.keepsTable : Command → Bool
  | pushAll _ | remove _ | evict _ | setSelf _ | ping _ | quit => false
  | _ => true

theorem LocalNode.perform_keepsTable {n : LocalNode} {c : Command} (shown : Clock)
    (h : c.keepsTable) : (n.perform shown c).2.table = n.table ∧
      (n.perform shown c).2.stopped = n.stopped := by
  unfold perform
  split
  · exact ⟨rfl, rfl⟩
  · cases c with
    | persist =>
      simp only [performRunning, LocalNode.persist]
      split
      · exact ⟨rfl, rfl⟩
      · split <;> exact ⟨rfl, rfl⟩
    | pushAll | remove | evict | setSelf | ping | quit => cases h
    | _ => exact ⟨rfl, rfl⟩

end SearchOverlay
