import SearchOverlay.Proofs.Sync.Closed
import SearchOverlay.Proofs.Trace

/-!
# Cycles side by side

An engine runs its loop of waits and cycles, and others call further cycles at any time. All of
them take their steps on one node in any order, amid commands of others. None of these steps
sets the flag or restores the marker, so both go at most once; and since the loop looks at the
flag before each wait, its waits are fast up to some point and slow from there on.
-/

namespace SearchOverlay

/-! ## Activities that only lower the flag -/

/-- The activity never pauses and never sets the flag. -/
def Activity.Quiet {α : Type} : Activity α → Prop
  | done _ => True
  | clock k => ∀ shown, (k shown).Quiet
  | pause _ _ => False
  | tell c k => c.raisesFlag = false ∧ ∀ a, (k a).Quiet
  | dropMarker k => (k ()).Quiet
  | ask _ _ k => ∀ r, (k r).Quiet

theorem Activity.Quiet.bind {α β : Type} {x : Activity α} {f : α → Activity β} (hx : x.Quiet)
    (hf : ∀ a, (f a).Quiet) : (x >>= f).Quiet := by
  induction x with
  | done a => exact hf a
  | clock k ih => exact fun shown => ih shown (hx shown)
  | pause ms k ih => exact hx.elim
  | tell c k ih => exact ⟨hx.1, fun a => ih a (hx.2 a)⟩
  | dropMarker k ih => exact ih () hx
  | ask p q k ih => exact fun r => ih r (hx r)

theorem Activity.closed_quiet : Closed @Quiet where
  done _ := trivial
  clock h := h
  tell hc h := ⟨hc, h⟩
  dropMarker h := h
  ask _ h := h
  report h _ := h
  bind := Quiet.bind

/-- From `n` to `m` the node may have left its first sync, lost the marker or stopped, but not
the other way round. -/
structure LocalNode.Descends (n m : LocalNode) : Prop where
  flag : m.bootstrapping → n.bootstrapping
  marked : m.marked → n.marked
  running : m.stopped = false → n.stopped = false

namespace LocalNode.Descends

variable {n m n' : LocalNode}

theorem refl (n : LocalNode) : Descends n n := ⟨id, id, id⟩

theorem trans (h : Descends n m) (h' : Descends m n') : Descends n n' :=
  ⟨h.flag ∘ h'.flag, h.marked ∘ h'.marked, h.running ∘ h'.running⟩

theorem inFirstSync (h : Descends n m) (hm : m.inFirstSync) : n.inFirstSync := by
  obtain ⟨hrunning, hflag⟩ := inFirstSync_iff.mp hm
  exact inFirstSync_iff.mpr ⟨h.running hrunning, h.flag hflag⟩

theorem perform (n : LocalNode) (shown : Clock) {c : Command} (hc : c.raisesFlag = false) :
    Descends n (n.perform shown c).2 where
  flag := bootstrapping_of_perform shown hc
  marked := by
    rw [marked_perform]
    exact id
  running := running_of_perform

theorem dropMarker (n : LocalNode) : Descends n n.dropMarker where
  flag := id
  marked h := by
    rw [marked_dropMarker] at h
    cases h
  running := id

end LocalNode.Descends

theorem Activity.Quiet.step {α : Type} {x y : Activity α} {n m : LocalNode} {xs : List Exchange}
    (hx : x.Quiet) (h : x.Step n xs y m) : y.Quiet ∧ n.Descends m := by
  cases h with
  | clock k n shown => exact ⟨hx shown, .refl n⟩
  | pause ms k n => exact hx.elim
  | tell c k n shown => exact ⟨hx.2 _, .perform n shown hx.1⟩
  | dropMarker k n => exact ⟨hx, .dropMarker n⟩
  | ask p q k n r => exact ⟨hx r, .refl n⟩

namespace Sync

theorem numberedCycle_quiet (p : Pace) (turns : Nat) : (numberedCycle p turns).Quiet :=
  numberedCycle_closed Activity.closed_quiet p turns

/-! ## Engines -/

structure Engine where
  node : LocalNode
  /-- What is left of the loop's turn. -/
  loop : Activity Unit
  turns : Nat
  /-- The waits of the loop, in order. -/
  waits : List Nat
  /-- What is left of the cycles that others have called. -/
  calls : List (Activity (List (Contact × PeerOutcome)))

namespace Engine

def start (p : Pace) (n : LocalNode) : Engine := ⟨n.startSync, nextCycle p 0, 0, [], []⟩

/-- The wait that an activity begins with. -/
def waitsOf {α : Type} : Activity α → List Nat
  | .pause ms _ => [ms]
  | _ => []

/-- Whose step is next is left open. -/
inductive Step (p : Pace) : Engine → Engine → Prop where
  | loop {e : Engine} {x : Activity Unit} {n : LocalNode} {xs : List Exchange}
      (step : e.loop.Step e.node xs x n) :
      Step p e { e with node := n, loop := x, waits := e.waits ++ waitsOf e.loop }
  | turn {e : Engine} (ended : e.loop = .done ()) :
      Step p e { e with loop := nextCycle p (e.turns + 1), turns := e.turns + 1 }
  | call (e : Engine) : Step p e { e with calls := cycle :: e.calls }
  | work {e : Engine} {before after : List (Activity (List (Contact × PeerOutcome)))}
      {x y : Activity (List (Contact × PeerOutcome))} {n : LocalNode} {xs : List Exchange}
      (called : e.calls = before ++ x :: after) (step : x.Step e.node xs y n) :
      Step p e { e with node := n, calls := before ++ y :: after }
  | other (e : Engine) {c : Command} (hc : c.keepsFlag) (shown : Clock) :
      Step p e { e with node := (e.node.perform shown c).2 }

/-- A run of an engine from its beginning. -/
structure Run (p : Pace) (n : LocalNode) (s : Nat → Engine) : Prop where
  start : s 0 = start p n
  next : ∀ i, s (i + 1) = s i ∨ Step p (s i) (s (i + 1))

/-- Waits that are fast up to some point and slow from there on, and all of them fast while the
flag is set. -/
def Slowing (p : Pace) (flag : Bool) (waits : List Nat) : Prop :=
  ∃ a b, waits = List.replicate a p.fast ++ List.replicate b p.slow ∧ (flag → b = 0)

/-- Where the loop stands: at the beginning of a turn, before the wait that `v` calls for, or
after it. -/
inductive Stands (p : Pace) (turns : Nat) (flag : Bool) (waits : List Nat) :
    Activity Unit → Prop where
  | fresh (hw : Slowing p flag waits) : Stands p turns flag waits (nextCycle p turns)
  | waiting (v : Bool) (hv : flag → v) (hw : Slowing p v waits) :
      Stands p turns flag waits (.pause (p.delay v) fun _ => numberedCycle p turns)
  | busy {x : Activity Unit} (hx : x.Quiet) (hw : Slowing p flag waits) :
      Stands p turns flag waits x

structure Sound (p : Pace) (e : Engine) : Prop where
  calls : ∀ x ∈ e.calls, x.Quiet
  loop : Stands p e.turns e.node.inFirstSync e.waits e.loop

variable {p : Pace} {e e' : Engine} {waits : List Nat} {turns : Nat} {flag flag' : Bool}

theorem Slowing.mono (h : Slowing p flag waits) (hflag : flag' → flag) :
    Slowing p flag' waits := by
  obtain ⟨a, b, hw, hb⟩ := h
  exact ⟨a, b, hw, hb ∘ hflag⟩

theorem Slowing.wait (h : Slowing p flag waits) : Slowing p flag (waits ++ [p.delay flag]) := by
  obtain ⟨a, b, rfl, hb⟩ := h
  cases flag with
  | true =>
    obtain rfl := hb rfl
    exact ⟨a + 1, 0, by simp [List.replicate_succ', Pace.delay], fun _ => rfl⟩
  | false => exact ⟨a, b + 1, by simp [List.replicate_succ', Pace.delay], nofun⟩

theorem Stands.mono {x : Activity Unit} (h : Stands p turns flag waits x)
    (hflag : flag' → flag) : Stands p turns flag' waits x := by
  cases h with
  | fresh hw => exact .fresh (hw.mono hflag)
  | waiting v hv hw => exact .waiting v (hv ∘ hflag) hw
  | busy hx hw => exact .busy hx (hw.mono hflag)

theorem waitsOf_quiet {α : Type} {x : Activity α} (hx : x.Quiet) : waitsOf x = [] := by
  cases x with
  | pause ms k => exact hx.elim
  | _ => rfl

theorem nextCycle_eq (p : Pace) (turns : Nat) : nextCycle p turns =
    .tell .isBootstrapping fun v => .pause (p.delay v) fun _ => numberedCycle p turns := rfl

theorem Stands.step {x y : Activity Unit} {n m : LocalNode} {xs : List Exchange}
    (h : Stands p turns n.inFirstSync waits x) (hstep : x.Step n xs y m) :
    Stands p turns m.inFirstSync (waits ++ waitsOf x) y ∧ n.Descends m := by
  cases h with
  | fresh hw =>
    rw [nextCycle_eq] at hstep ⊢
    cases hstep with
    | tell _ _ _ shown =>
      rw [LocalNode.perform_isBootstrapping, waitsOf, List.append_nil]
      · exact ⟨.waiting _ id hw, .refl n⟩
      · nofun
  | waiting v hv hw =>
    cases hstep
    exact ⟨.busy (numberedCycle_quiet p turns) (hw.wait.mono hv), .refl n⟩
  | busy hx hw =>
    obtain ⟨hy, hdescends⟩ := hx.step hstep
    rw [waitsOf_quiet hx, List.append_nil]
    exact ⟨.busy hy (hw.mono hdescends.inFirstSync), hdescends⟩

theorem Stands.ended {u : Unit} (h : Stands p turns flag waits (.done u)) :
    Slowing p flag waits := by
  generalize hx : Activity.done u = x at h
  cases h with
  | fresh hw | busy _ hw => exact hw
  | waiting v hv hw => cases hx

theorem Step.sound (h : Step p e e') (he : e.Sound p) : e'.Sound p ∧ e.node.Descends e'.node := by
  cases h with
  | loop step =>
    obtain ⟨hloop, hdescends⟩ := he.loop.step step
    exact ⟨⟨he.calls, hloop⟩, hdescends⟩
  | turn ended =>
    have hloop := he.loop
    rw [ended] at hloop
    exact ⟨⟨he.calls, .fresh hloop.ended⟩, .refl _⟩
  | call =>
    have hcalls := List.forall_mem_cons.mpr ⟨cycle_closed Activity.closed_quiet, he.calls⟩
    exact ⟨⟨hcalls, he.loop⟩, .refl _⟩
  | work called step =>
    have hcalls := he.calls
    simp only [called, List.forall_mem_append, List.forall_mem_cons] at hcalls
    obtain ⟨hbefore, hx, hafter⟩ := hcalls
    obtain ⟨hy, hdescends⟩ := hx.step step
    refine ⟨⟨?_, he.loop.mono hdescends.inFirstSync⟩, hdescends⟩
    exact List.forall_mem_append.mpr ⟨hbefore, List.forall_mem_cons.mpr ⟨hy, hafter⟩⟩
  | other hc shown =>
    have hdescends := LocalNode.Descends.perform e.node shown (Command.not_raisesFlag hc)
    exact ⟨⟨he.calls, he.loop.mono hdescends.inFirstSync⟩, hdescends⟩

theorem start_sound (p : Pace) (n : LocalNode) : (start p n).Sound p where
  calls _ h := absurd h List.not_mem_nil
  loop := .fresh ⟨0, 0, rfl, fun _ => rfl⟩

theorem Run.sound {n : LocalNode} {s : Nat → Engine} (h : Run p n s) (i : Nat) :
    (s i).Sound p := by
  induction i with
  | zero =>
    rw [h.start]
    exact start_sound p n
  | succ i ih =>
    rcases h.next i with heq | hstep
    · rwa [heq]
    · exact (hstep.sound ih).1

theorem Run.descends {n : LocalNode} {s : Nat → Engine} (h : Run p n s) {i j : Nat} (hij : i ≤ j) :
    (s i).node.Descends (s j).node := by
  induction hij with
  | refl => exact .refl _
  | @step j hij ih =>
    rcases h.next j with heq | hstep
    · rwa [heq]
    · exact ih.trans (hstep.sound (h.sound j)).2

theorem Stands.waits_eq {x : Activity Unit} (h : Stands p turns flag waits x) :
    ∃ a b, waits = List.replicate a p.fast ++ List.replicate b p.slow := by
  cases h with
  | fresh hw | waiting _ _ hw | busy _ hw =>
    obtain ⟨a, b, hw, -⟩ := hw
    exact ⟨a, b, hw⟩

end Engine

end Sync

end SearchOverlay
