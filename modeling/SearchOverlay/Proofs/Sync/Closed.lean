import SearchOverlay.Proofs.RoutingTable.Adoption
import SearchOverlay.Proofs.Sync.Flag

/-!
# Properties of cycles

A cycle puts together few kinds of steps: it never sets the flag, and it restamps what is
reported to it before anything else. A property of activities that is `Closed` under these steps
holds of every cycle, whatever comes of its queries. The stages of a visit that pull neither ask
for neighbours nor compare watermarks, so fewer steps will do for them.
-/

namespace SearchOverlay

/-- A reply without what it says of when contacts were seen. -/
def Query.blur : (q : Query) → q.Reply → q.Reply
  | getPeers, cs => cs.map Contact.blur
  | ping _, id => id
  | getStatus, s => s
  | getResultsSince _ _, rs => rs
  | getMetadataSince _ _, ms => ms
  | getMetadataOf _, m => m

theorem Query.map_blur {q : Query} (h : q ≠ .getPeers) (r : Except CallError q.Reply) :
    r.map q.blur = r := by
  cases q with
  | getPeers => exact absurd rfl h
  | _ => cases r <;> rfl

/-- What is reported is restamped, so its bookkeeping does not matter. -/
theorem Lookup.reported_blur (clock : Clock) (me : Identity) (cs : List Contact) :
    reported clock me (cs.map Contact.blur) = reported clock me cs := by
  have hfilter : (cs.map Contact.blur).filter (·.identity ≠ me) =
      (cs.filter (·.identity ≠ me)).map Contact.blur := by
    rw [List.filter_map]
    rfl
  rw [reported, reported, hfilter, Contact.restamp, Contact.restamp]
  exact List.ext_getElem (by simp) fun i _ _ => by simp [Contact.blur]

/-- A property of activities that is kept by the steps that make up a cycle. -/
structure Activity.Closed (P : ∀ {α : Type}, Activity α → Prop) : Prop where
  done {α : Type} (a : α) : P (.done a)
  clock {α : Type} {k : Clock → Activity α} (h : ∀ shown, P (k shown)) : P (.clock k)
  tell {α : Type} {c : Command} {k : c.Answer → Activity α} (hc : c.raisesFlag = false)
    (h : ∀ a, P (k a)) : P (.tell c k)
  dropMarker {α : Type} {k : Unit → Activity α} (h : P (k ())) : P (.dropMarker k)
  ask {α : Type} {peer : Contact} {q : Query} {k : Except CallError q.Reply → Activity α}
    (hq : q ≠ .getPeers) (h : ∀ r, P (k r)) : P (.ask peer q k)
  /-- Reports are told apart by whom they name only. -/
  report {α : Type} {peer : Contact}
    {k : Except CallError Query.getPeers.Reply → Activity α} (h : ∀ r, P (k r))
    (hk : ∀ r, k (r.map Query.getPeers.blur) = k r) : P (.ask peer .getPeers k)
  bind {α β : Type} {x : Activity α} {f : α → Activity β} (hx : P x) (hf : ∀ a, P (f a)) :
    P (x >>= f)

/-- A property of activities that is kept by the steps that make up the stages of a visit that
pull. -/
structure Activity.Pulling (P : ∀ {α : Type}, Activity α → Prop) : Prop where
  done {α : Type} (a : α) : P (.done a)
  tell {α : Type} {c : Command} {k : c.Answer → Activity α} (hflag : c.raisesFlag = false)
    (hc : c ≠ .status) (h : ∀ a, P (k a)) : P (.tell c k)
  ask {α : Type} {peer : Contact} {q : Query} {k : Except CallError q.Reply → Activity α}
    (hpeers : q ≠ .getPeers) (hq : q ≠ .getStatus) (h : ∀ r, P (k r)) : P (.ask peer q k)
  bind {α β : Type} {x : Activity α} {f : α → Activity β} (hx : P x) (hf : ∀ a, P (f a)) :
    P (x >>= f)

theorem Activity.Closed.pulling {P : ∀ {α : Type}, Activity α → Prop} (h : Closed @P) :
    Pulling @P where
  done := h.done
  tell hflag _ := h.tell hflag
  ask hpeers _ := h.ask hpeers
  bind := h.bind

namespace Sync

open Activity

/-- What comes after the ping. -/
def afterPing (me peer : Contact) (known : Bool) (pong : Except CallError (Query.ping me).Reply) :
    Activity (PeerOutcome × Bool) :=
  match pong with
  | .ok _ => refreshRouting me.identity peer known
  | .error e =>
    if e.isBootstrapping then return (.skipped, known) else return (← evict peer .ping, known)

theorem visit_eq (me peer : Contact) (known : Bool) :
    visit me peer known = .ask peer (.ping me) fun pong =>
      (if known then setFlag known pong.isOk else pure known) >>= fun flag =>
        afterPing me peer flag pong := by
  unfold visit
  congr 1
  funext pong
  cases known <;> cases pong <;> rfl

variable {P : ∀ {α : Type}, Activity α → Prop}

section Pulls

variable (hP : Pulling @P) (peer : Contact) (mine theirs : SyncStatus) (known : Bool)

include hP

theorem setFlag_closed (value : Bool) (h : value → known) : P (setFlag known value) := by
  unfold setFlag
  split
  · exact hP.done _
  · next hne =>
    refine hP.tell ?_ nofun fun _ => hP.done _
    cases value with
    | false => rfl
    | true => exact absurd (h rfl) hne

theorem evict_closed (stage : SyncStage) : P (evict peer stage) :=
  hP.tell rfl nofun fun _ => hP.done _

theorem pullMetadata_closed (merged : Nat) : P (pullMetadata peer mine theirs merged) := by
  unfold pullMetadata
  split
  · refine hP.ask nofun nofun fun r => ?_
    cases r with
    | ok ms => exact hP.tell rfl nofun fun _ => hP.done _
    | error e => exact evict_closed hP peer .syncMetadata
  · exact hP.done _

theorem afterResults_closed (pulled merged : Nat) :
    P (afterResults peer mine theirs pulled merged known) := by
  have hrest (flag : Bool) : P (do return (← pullMetadata peer mine theirs merged, flag) :
      Activity (PeerOutcome × Bool)) :=
    hP.bind (pullMetadata_closed hP peer mine theirs merged) fun _ => hP.done _
  unfold afterResults
  dsimp only
  split
  · exact hP.bind (setFlag_closed hP known false nofun) hrest
  · exact hrest known

theorem evict_return_closed (stage : SyncStage) :
    P (do return (← evict peer stage, known) : Activity (PeerOutcome × Bool)) :=
  hP.bind (evict_closed hP peer stage) fun _ => hP.done _

theorem pullResults_closed : P (pullResults peer mine theirs known) := by
  unfold pullResults
  split
  · refine hP.ask nofun nofun fun r => ?_
    cases r with
    | ok rs =>
      refine hP.tell rfl nofun fun merged => ?_
      exact afterResults_closed hP peer mine theirs known rs.length merged
    | error e => exact evict_return_closed hP peer known .syncResults
  · exact afterResults_closed hP peer mine theirs known 0 0

end Pulls

section Stages

variable (hP : Closed @P) (peer : Contact) (known : Bool)

include hP

theorem compareStatus_closed : P (compareStatus peer known) := by
  refine hP.ask nofun fun r => ?_
  cases r with
  | error e => exact evict_return_closed hP.pulling peer known .status
  | ok theirs =>
    refine hP.tell rfl fun mine => ?_
    split
    · exact hP.dropMarker (pullResults_closed hP.pulling peer mine theirs known)
    · exact pullResults_closed hP.pulling peer mine theirs known

theorem refreshRouting_closed (me : Identity) : P (refreshRouting me peer known) := by
  refine hP.tell rfl fun full => ?_
  split
  · exact compareStatus_closed hP peer known
  · refine hP.report (fun r => ?_) fun r => ?_
    · cases r with
      | ok cs => exact hP.clock fun _ => hP.tell rfl fun _ => compareStatus_closed hP peer known
      | error e => exact evict_return_closed hP.pulling peer known .refreshRouting
    · cases r with
      | ok cs =>
        show Activity.clock _ = Activity.clock _
        congr 1
        funext clock
        simp only [Query.blur]
        rw [Lookup.reported_blur clock me cs]
      | error e => rfl

theorem afterPing_closed (me : Contact) (pong : Except CallError (Query.ping me).Reply) :
    P (afterPing me peer known pong) := by
  cases pong with
  | ok id => exact refreshRouting_closed hP peer known me.identity
  | error e =>
    unfold afterPing
    dsimp only
    split
    · exact hP.done _
    · exact evict_return_closed hP.pulling peer known .ping

theorem visit_closed (me : Contact) : P (visit me peer known) := by
  rw [visit_eq]
  refine hP.ask nofun fun pong => ?_
  split
  · next hknown =>
    refine hP.bind (setFlag_closed hP.pulling known _ fun _ => hknown) fun flag => ?_
    exact afterPing_closed hP peer flag me pong
  · exact afterPing_closed hP peer known me pong

end Stages

theorem visitAll_closed (hP : Closed @P) (me : Contact) (peers : List Contact) (known : Bool) :
    P (visitAll me peers known) := by
  induction peers generalizing known with
  | nil => exact hP.done _
  | cons peer peers ih =>
    rw [visitAll]
    split
    · exact ih known
    · refine hP.bind (visit_closed hP peer known me) fun r => ?_
      exact hP.bind (ih r.2) fun _ => hP.done _

theorem cycle_closed (hP : Closed @P) : P cycle := by
  refine hP.tell rfl fun me => ?_
  cases me with
  | none => exact hP.done _
  | some me =>
    exact hP.tell rfl fun peers => hP.tell rfl fun known => visitAll_closed hP me peers known

theorem numberedCycle_closed (hP : Closed @P) (p : Pace) (turns : Nat) :
    P (numberedCycle p turns) := by
  refine hP.bind (cycle_closed hP) fun _ => ?_
  split
  · exact hP.tell rfl fun _ => hP.done _
  · exact hP.done _

end Sync

end SearchOverlay
