import SearchOverlay.Lookup
import SearchOverlay.Proofs.Sync.Closed

/-!
# Activities that do not look at foreign bookkeeping

What a peer reports about contacts includes when it saw them and how stale it takes them to be.
An activity is blind if it goes on in the same way whatever reports say of that. Lookups, joins
and cycles are blind, since they restamp what is reported to them.
-/

namespace SearchOverlay

namespace Activity

variable {α β : Type}

/-- The activity goes on in the same way whatever reports say of when contacts were seen. -/
def Blind : Activity α → Prop
  | done _ => True
  | clock k => ∀ shown, (k shown).Blind
  | pause _ k => (k ()).Blind
  | tell _ k => ∀ a, (k a).Blind
  | dropMarker k => (k ()).Blind
  | ask _ q k => ∀ r, (k r).Blind ∧ k (r.map q.blur) = k r

theorem Blind.bind {x : Activity α} {f : α → Activity β} (hx : x.Blind)
    (hf : ∀ a, (f a).Blind) : (x >>= f).Blind := by
  induction x with
  | done a => exact hf a
  | clock k ih => exact fun shown => ih shown (hx shown)
  | pause ms k ih => exact ih () hx
  | tell c k ih => exact fun a => ih a (hx a)
  | dropMarker k ih => exact ih () hx
  | ask p q k ih => exact fun r => ⟨ih r (hx r).1, congrArg (Activity.bind · f) (hx r).2⟩

theorem blind_ask {p : Contact} {q : Query} {k : Except CallError q.Reply → Activity α}
    (hq : q ≠ .getPeers) (h : ∀ r, (k r).Blind) : (ask p q k).Blind :=
  fun r => ⟨h r, congrArg k (q.map_blur hq r)⟩

theorem closed_blind : Closed @Blind where
  done _ := trivial
  clock h := h
  tell _ h := h
  dropMarker h := h
  ask hq h := blind_ask hq h
  report h hk := fun r => ⟨h r, hk r⟩
  bind := Blind.bind

end Activity

open Activity

namespace Lookup

theorem walk_blind (me : Identity) (visited : List Identity) (queried : Nat)
    (queue : List Contact) : (walk me visited queried queue).Blind := by
  induction visited, queried, queue using walk.induct me with
  | case1 visited queried =>
    rw [walk]
    trivial
  | case2 visited queried peer queue hlimit =>
    rw [walk, if_pos hlimit]
    trivial
  | case3 visited queried peer queue hlimit hmet ih =>
    rw [walk, if_neg hlimit, if_pos hmet]
    exact ih
  | case4 visited queried peer queue hlimit hnew visited' ihOk ihError =>
    rw [walk, if_neg hlimit, if_neg hnew]
    intro r
    cases r with
    | error e => exact ⟨fun _ => ihError, rfl⟩
    | ok cs =>
      refine ⟨fun clock _ => ihOk cs clock, ?_⟩
      show Activity.clock _ = Activity.clock _
      congr 1
      funext clock
      simp only [Query.blur]
      rw [reported_blur clock me cs]

theorem run_blind : run.Blind := by
  intro me
  cases me with
  | none => trivial
  | some me =>
    exact fun start => (walk_blind me.identity [me.identity] 0 start).bind fun _ => trivial

end Lookup

namespace Join

theorem through_blind (seed : Contact) : (through seed).Blind := by
  refine fun _ => Lookup.run_blind.bind fun queried => ?_
  cases queried <;> trivial

theorem run_blind (address : String) : (run address).Blind := by
  intro me
  cases me with
  | none => trivial
  | some me =>
    refine fun shown => blind_ask nofun fun pong => ?_
    cases pong with
    | ok id => exact fun shown => through_blind _
    | error e =>
      show (if e.isBootstrapping then _ else _ : Activity (Except Failure Nat)).Blind
      split
      · exact fun shown => through_blind _
      · trivial

end Join

theorem Sync.nextCycle_blind (p : Pace) (turns : Nat) : (nextCycle p turns).Blind :=
  fun _ => numberedCycle_closed closed_blind p turns

end SearchOverlay
