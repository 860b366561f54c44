import SearchOverlay.Proofs.Sync.Calls
import SearchOverlay.Proofs.Sync.Engine

/-!
# The end of the first sync

While cycles take turns, a cycle knows the flag of the node. A visit that begins in the first
sync leaves it unless the peer has something to give or fails before it could tell. `Judged`
says so of the rest of a visit, and `Serial` strings visits together.
-/

namespace SearchOverlay

def Exchange.records : Exchange → List Record
  | ⟨_, .getResultsSince _ _, .ok rs⟩ => rs
  | _ => []

def recordsOf (xs : List Exchange) : List Record := xs.flatMap Exchange.records

@[simp] theorem recordsOf_nil : recordsOf [] = [] := rfl

@[simp] theorem recordsOf_cons (e : Exchange) (xs : List Exchange) :
    recordsOf (e :: xs) = e.records ++ recordsOf xs := rfl

theorem recordsOf_pull {peer : Contact} {since : Time} {max : Nat} {rs : List Record}
    {xs : List Exchange} (h : recordsOf xs = []) :
    recordsOf (⟨peer, .getResultsSince since max, .ok rs⟩ :: xs) = rs := by
  rw [recordsOf_cons, h, List.append_nil]
  rfl

/-- Whether a visit ended in eviction no later than the pull of the records. -/
def PeerOutcome.isEarly : PeerOutcome → Bool
  | evicted .syncMetadata => false
  | evicted _ => true
  | synced _ _ | skipped => false

namespace Sync

/-! ## The stages of a visit -/

/-- The rest of a visit that knew the flag as `known`: the flag is still set if the peer was
evicted early or gave records, and then the marker is there. -/
structure Judged (known : Bool) (r : PeerOutcome × Bool) (flag marked : Bool)
    (xs : List Exchange) : Prop where
  told : r.2 = flag
  flag_eq : flag = (known && (r.1.isEarly || !(recordsOf xs).isEmpty))
  marked_of_flag : flag → marked

variable {known marked : Bool} (peer : Contact)

theorem Judged.cons {known marked flag : Bool} {r : PeerOutcome × Bool} {xs : List Exchange}
    (h : Judged known r flag marked xs) {e : Exchange} (he : e.records = []) :
    Judged known r flag marked (e :: xs) where
  told := h.told
  flag_eq := by
    rw [recordsOf_cons, he]
    exact h.flag_eq
  marked_of_flag := h.marked_of_flag

/-- The flag is what a cycle knows of it afterwards. -/
theorem setFlag_amid (known value marked : Bool) :
    (setFlag known value).Amid known marked fun told f m xs =>
      told = value ∧ f = value ∧ m = marked ∧ xs = [] := by
  unfold setFlag
  split
  · next h => exact .done ⟨h, h, rfl, rfl⟩
  · exact .setFlag (.done ⟨rfl, rfl, rfl, rfl⟩)

theorem evict_return_amid {Q : PeerOutcome × Bool → Bool → Bool → List Exchange → Prop}
    (stage : SyncStage) (h : Q (.evicted stage, known) known marked []) :
    (do return (← evict peer stage, known) : Activity (PeerOutcome × Bool)).Amid known marked Q :=
  .bind (.tell rfl fun _ => .done (.done h))

theorem judged_early {stage : SyncStage} (hstage : (PeerOutcome.evicted stage).isEarly)
    (hmarked : known → marked) : Judged known (.evicted stage, known) known marked [] :=
  ⟨rfl, by simp [hstage], hmarked⟩

theorem pullMetadata_amid (mine theirs : SyncStatus) (merged : Nat) (flag marked : Bool) :
    (pullMetadata peer mine theirs merged).Amid flag marked fun outcome f m xs =>
      f = flag ∧ m = marked ∧ outcome.isEarly = false ∧ recordsOf xs = [] := by
  unfold pullMetadata
  split
  · refine .ask fun r => ?_
    cases r with
    | ok ms => exact .tell rfl fun _ => .done ⟨rfl, rfl, rfl, rfl⟩
    | error e => exact .tell rfl fun _ => .done ⟨rfl, rfl, rfl, rfl⟩
  · exact .done ⟨rfl, rfl, rfl, rfl⟩

/-- Without records the first sync is over. -/
theorem afterResults_amid (mine theirs : SyncStatus) (pulled merged : Nat) :
    (afterResults peer mine theirs pulled merged known).Amid known marked fun r f m xs =>
      r.2 = f ∧ f = (known && decide (pulled ≠ 0)) ∧ m = marked ∧ r.1.isEarly = false ∧
        recordsOf xs = [] := by
  have hrest : ∀ flag : Bool, (do return (← pullMetadata peer mine theirs merged, flag) :
      Activity (PeerOutcome × Bool)).Amid flag marked fun r f m xs =>
        r.2 = flag ∧ f = flag ∧ m = marked ∧ r.1.isEarly = false ∧ recordsOf xs = [] := by
    intro flag
    refine .bind ((pullMetadata_amid peer mine theirs merged flag marked).imp ?_)
    rintro outcome f m xs ⟨rfl, rfl, hearly, hrecords⟩
    exact .done ⟨rfl, rfl, rfl, hearly, by rw [List.append_nil, hrecords]⟩
  unfold afterResults
  dsimp only
  split
  · next hnothing =>
    have hpulled : pulled = 0 := by simp at hnothing; exact hnothing.1
    refine .bind ((setFlag_amid known false marked).imp ?_)
    rintro told f m xs ⟨rfl, rfl, rfl, rfl⟩
    refine (hrest false).imp fun r f m xs h => ?_
    simpa [hpulled, h.2.1] using h
  · next hsome =>
    refine (hrest known).imp fun r f m xs ⟨htold, hf, hm, hearly, hrecords⟩ => ?_
    refine ⟨htold.trans hf.symm, hf.trans ?_, hm, hearly, hrecords⟩
    cases known <;> simp_all

theorem pullResults_amid (mine theirs : SyncStatus) :
    (pullResults peer mine theirs known).Amid known marked fun r f m xs =>
      r.2 = f ∧ f = (known && (r.1.isEarly || !(recordsOf xs).isEmpty)) ∧ m = marked ∧
        (¬ mine.results < theirs.results → f = false) := by
  unfold pullResults
  split
  · next hahead =>
    refine .ask fun r => ?_
    rcases r with e | (rs : List Record)
    · have hearly : (PeerOutcome.evicted .syncResults).isEarly = true := rfl
      exact evict_return_amid peer .syncResults
        ⟨rfl, by simp [hearly], rfl, fun h => absurd hahead h⟩
    · refine .tell rfl fun merged => (afterResults_amid peer mine theirs rs.length merged).imp ?_
      rintro r f m xs ⟨htold, hf, hm, hearly, hrecords⟩
      refine ⟨htold, hf.trans ?_, hm, fun h => absurd hahead h⟩
      rw [recordsOf_pull hrecords, hearly]
      cases rs <;> simp
  · refine (afterResults_amid peer mine theirs 0 0).imp ?_
    rintro r f m xs ⟨htold, hf, hm, hearly, hrecords⟩
    have hf : f = false := by simpa using hf
    exact ⟨htold, by simp [hf, hearly, hrecords], hm, fun _ => hf⟩

theorem compareStatus_amid (hmarked : known → marked) :
    (compareStatus peer known).Amid known marked (Judged known) := by
  refine .ask fun r => ?_
  cases r with
  | error e => exact evict_return_amid peer .status ((judged_early rfl hmarked).cons rfl)
  | ok theirs =>
    refine .tell rfl fun mine => ?_
    split
    · next hcaught =>
      -- the marker goes, and so does the flag, as there is nothing to pull
      refine .dropMarker ((pullResults_amid peer mine theirs).imp ?_)
      rintro r f m xs ⟨htold, hf, rfl, hover⟩
      have hnot : ¬ mine.results < theirs.results := by
        simp [caughtUp] at hcaught
        exact UInt64.not_lt.mpr hcaught.2.1
      exact Judged.cons ⟨htold, hf, by simp [hover hnot]⟩ rfl
    · refine (pullResults_amid peer mine theirs).imp ?_
      rintro r f m xs ⟨htold, hf, rfl, -⟩
      refine Judged.cons ⟨htold, hf, fun h => hmarked ?_⟩ rfl
      rw [h] at hf
      exact (Bool.and_eq_true_iff.mp hf.symm).1

theorem refreshRouting_amid (me : Identity) (hmarked : known → marked) :
    (refreshRouting me peer known).Amid known marked (Judged known) := by
  refine .tell rfl fun full => ?_
  split
  · exact compareStatus_amid peer hmarked
  · refine .ask fun r => ?_
    cases r with
    | ok cs =>
      refine .clock fun shown => .tell rfl fun _ => ?_
      exact (compareStatus_amid peer hmarked).imp fun _ _ _ _ h => h.cons rfl
    | error e => exact evict_return_amid peer .refreshRouting ((judged_early rfl hmarked).cons rfl)

theorem afterPing_amid (me : Contact) {pong : Except CallError (Query.ping me).Reply}
    (hpong : known → pong.isOk) (hmarked : known → marked) :
    (afterPing me peer known pong).Amid known marked (Judged known) := by
  cases pong with
  | ok id => exact refreshRouting_amid peer me.identity hmarked
  | error e =>
    obtain rfl : known = false := Bool.eq_false_iff.mpr fun h => Bool.false_ne_true (hpong h)
    have hgone : ∀ {p : Prop}, false = true → p := fun h => absurd h Bool.false_ne_true
    unfold afterPing
    dsimp only
    split
    · exact .done ⟨rfl, rfl, hgone⟩
    · exact evict_return_amid peer .ping ⟨rfl, rfl, hgone⟩

/-- A visit begins with a ping, and a ping that fails ends the first sync. -/
theorem visit_amid (me : Contact) (hmarked : known → marked) :
    (visit me peer known).Amid known marked fun r f m xs =>
      ∃ pong ys, xs = ⟨peer, .ping me, pong⟩ :: ys ∧ Judged (known && pong.isOk) r f m ys := by
  rw [visit_eq]
  refine .ask fun pong => ?_
  cases known with
  | false =>
    have hgone : ∀ {p : Prop}, false = true → p := fun h => absurd h Bool.false_ne_true
    refine .bind (.done ((afterPing_amid peer me hgone hgone).imp ?_))
    exact fun r f m xs h => ⟨pong, xs, rfl, h⟩
  | true =>
    refine .bind ((setFlag_amid true pong.isOk marked).imp ?_)
    rintro told f m xs ⟨rfl, rfl, rfl, rfl⟩
    refine (afterPing_amid peer me id fun _ => hmarked rfl).imp ?_
    exact fun r f m xs h => ⟨pong, xs, rfl, h⟩

/-! ## One cycle at a time -/

/-- Where a node stands whose cycles run one at a time, between two visits: in no cycle, or in
one that knows the flag as `known`. Others send commands all the while. -/
inductive Serial (n₀ : LocalNode) : Option Bool → LocalNode → Prop where
  | start : Serial n₀ none n₀.startSync
  | other {k : Option Bool} {n : LocalNode} {c : Command} (before : Serial n₀ k n)
      (hc : c.keepsFlag) (shown : Clock) : Serial n₀ k (n.perform shown c).2
  | begin {n : LocalNode} (before : Serial n₀ none n) : Serial n₀ (some n.inFirstSync) n
  | visit {n n' : LocalNode} {known known' : Bool} {me peer : Contact} {outcome : PeerOutcome}
      {xs : List Exchange} (before : Serial n₀ (some known) n)
      (trace : (visit me peer known).Trace n xs (.done (outcome, known')) n') :
      Serial n₀ (some known') n'
  | finish {n : LocalNode} {known : Bool} (before : Serial n₀ (some known) n) : Serial n₀ none n

variable {n₀ n n' : LocalNode} {k : Option Bool}

/-- A running node has the flag that the cycle knows of, and with it the marker. -/
theorem Serial.sound (h : Serial n₀ k n) (hn : n.stopped = false) :
    (n.bootstrapping → n.marked) ∧ ∀ known, k = some known → n.bootstrapping = known := by
  induction h with
  | start =>
    rw [LocalNode.bootstrapping_startSync]
    exact ⟨id, nofun⟩
  | other before hc shown ih =>
    rw [LocalNode.bootstrapping_perform shown hc, LocalNode.marked_perform]
    exact ih (LocalNode.running_of_perform hn)
  | begin before ih =>
    refine ⟨(ih hn).1, fun known hknown => ?_⟩
    rw [← LocalNode.inFirstSync_of_running hn]
    exact Option.some.inj hknown
  | @visit n n' known known' me peer outcome xs before trace ih =>
    obtain ⟨hmarked, hknown⟩ := ih (trace.running hn)
    have hflag := hknown known rfl
    rw [hflag] at hmarked
    obtain ⟨pong, ys, rfl, h⟩ := visit_amid peer me hmarked n _ _ n' hflag rfl trace hn
    exact ⟨h.marked_of_flag, fun _ hk => h.told.symm.trans (Option.some.inj hk)⟩
  | finish before ih => exact ⟨(ih hn).1, nofun⟩

theorem Serial.others (h : Serial n₀ k n) (ho : Activity.Others n n') : Serial n₀ k n' := by
  induction ho with
  | refl n => exact h
  | cons hc shown rest ih => exact ih (h.other hc shown)

theorem Serial.tell {α : Type} {c : Command} {next : c.Answer → Activity α} {a : α}
    {xs : List Exchange} (h : Serial n₀ k n) (hc : c.keepsFlag)
    (ht : (Activity.tell c next).Trace n xs (.done a) n') : ∃ m shown, Serial n₀ k m ∧
      Serial n₀ k (m.perform shown c).2 ∧
      (next (m.perform shown c).1).Trace (m.perform shown c).2 xs (.done a) n' := by
  rcases ht.first with ⟨-, hdone, -⟩ | ⟨m, ys, y, m', zs, ho, hstep, hrest, rfl⟩
  · cases hdone
  · cases hstep with
    | tell _ _ _ shown => exact ⟨m, shown, h.others ho, (h.others ho).other hc shown, hrest⟩

theorem Serial.visitAll {me : Contact} {peers : List Contact} {known : Bool}
    {outcomes : List (Contact × PeerOutcome)} {xs : List Exchange} (h : Serial n₀ (some known) n)
    (ht : (visitAll me peers known).Trace n xs (.done outcomes) n') :
    ∃ known', Serial n₀ (some known') n' := by
  induction peers generalizing known n n' xs outcomes with
  | nil => exact ⟨known, h.others ht.of_done.1⟩
  | cons peer peers ih =>
    rw [Sync.visitAll] at ht
    split at ht
    · exact ih h ht
    · obtain ⟨⟨outcome, known'⟩, m, ys, zs, hvisit, hrest, rfl⟩ := ht.of_bind
      obtain ⟨outcomes, m', ys', zs', hpeers, hdone, rfl⟩ := hrest.of_bind
      obtain ⟨known'', h'⟩ := ih (h.visit hvisit) hpeers
      exact ⟨known'', h'.others hdone.of_done.1⟩

theorem Serial.cycle {outcomes : List (Contact × PeerOutcome)} {xs : List Exchange}
    (h : Serial n₀ none n) (ht : cycle.Trace n xs (.done outcomes) n') : Serial n₀ none n' := by
  obtain ⟨m₁, shown, -, h₁, ht⟩ := h.tell rfl ht
  cases hme : (m₁.perform shown .self).1 with
  | none =>
    rw [hme] at ht
    exact h₁.others ht.of_done.1
  | some me =>
    rw [hme] at ht
    obtain ⟨m₂, shown, -, h₂, ht⟩ := h₁.tell rfl ht
    obtain ⟨m₃, shown, h₃, -, ht⟩ := h₂.tell rfl ht
    rw [LocalNode.perform_isBootstrapping] at ht
    obtain ⟨known, h'⟩ := h₃.begin.visitAll ht
    exact h'.finish

/-- A turn of the loop is one cycle, with commands before and after it. -/
theorem Serial.nextCycle {p : Pace} {turns : Nat} {xs : List Exchange} (h : Serial n₀ none n)
    (ht : (nextCycle p turns).Trace n xs (.done ()) n') : Serial n₀ none n' := by
  rw [Engine.nextCycle_eq] at ht
  obtain ⟨m, shown, -, hm, ht⟩ := h.tell rfl ht
  rcases ht.first with ⟨-, hdone, -⟩ | ⟨m', ys, y, m'', zs, ho, hstep, hrest, rfl⟩
  · cases hdone
  · cases hstep
    obtain ⟨outcomes, m₁, xs, ys, hcycle, hpersist, rfl⟩ := hrest.of_bind
    have h₁ := (hm.others ho).cycle hcycle
    split at hpersist
    · obtain ⟨m₂, shown, -, h₂, hdone⟩ := h₁.tell rfl hpersist
      exact h₂.others hdone.of_done.1
    · exact h₁.others hpersist.of_done.1

/-- Whatever the peers do and however the cycles interleave: the flag goes at most once, and so
does the marker, so the waits of the loop are fast up to some point and slow from there on. While
the cycles run one at a time, the flag is never set without the marker between two visits, and a
visit that begins in the first sync leaves the node in it if and only if its ping succeeded and
it was evicted early or gave records. -/
theorem first_sync_ends_once (p : Pace) (n₀ : LocalNode) :
    (∀ s, Engine.Run p n₀ s →
      (∀ i j, i ≤ j → ((s j).node.bootstrapping → (s i).node.bootstrapping) ∧
        ((s j).node.marked → (s i).node.marked)) ∧
      ∀ i, ∃ a b, (s i).waits = List.replicate a p.fast ++ List.replicate b p.slow) ∧
    (∀ k n, Serial n₀ k n → n.inFirstSync → n.marked) ∧
    (∀ n known me peer xs outcome known' n', Serial n₀ (some known) n → n.inFirstSync →
      (visit me peer known).Trace n xs (.done (outcome, known')) n' → n'.stopped = false →
      ∃ pong ys, xs = ⟨peer, .ping me, pong⟩ :: ys ∧
        (n'.inFirstSync ↔ pong.isOk ∧ (outcome.isEarly ∨ recordsOf ys ≠ []))) ∧
    ∀ n xs n', Serial n₀ none n →
      (∀ outcomes, cycle.Trace n xs (.done outcomes) n' → Serial n₀ none n') ∧
      ∀ turns, (nextCycle p turns).Trace n xs (.done ()) n' → Serial n₀ none n' := by
  refine ⟨fun s hrun => ⟨fun i j hij => ?_, fun i => (hrun.sound i).loop.waits_eq⟩,
    fun k n h hn => ?_, ?_, fun n xs n' h => ⟨fun _ => h.cycle, fun _ => h.nextCycle⟩⟩
  · exact ⟨(hrun.descends hij).flag, (hrun.descends hij).marked⟩
  · obtain ⟨hrunning, hflag⟩ := LocalNode.inFirstSync_iff.mp hn
    exact (h.sound hrunning).1 hflag
  · intro n known me peer xs outcome known' n' h hn ht hrunning
    obtain ⟨hrunning', hflag⟩ := LocalNode.inFirstSync_iff.mp hn
    obtain ⟨hmarked, hknown⟩ := h.sound hrunning'
    obtain rfl : known = true := (hknown known rfl).symm.trans hflag
    obtain ⟨pong, ys, hxs, hjudged⟩ := visit_amid peer me (fun _ => hmarked hflag) n xs _ n'
      hflag rfl ht hrunning
    refine ⟨pong, ys, hxs, ?_⟩
    rw [LocalNode.inFirstSync_of_running hrunning, hjudged.flag_eq]
    simp

/-- The engine of a blank node up to the end of its first wait. -/
def firstWait : Nat → Engine
  | 0 => .start .default blankNode
  | 1 => { Engine.start .default blankNode with
      loop := .pause 5000 fun _ => numberedCycle .default 0 }
  | _ => { Engine.start .default blankNode with
      loop := numberedCycle .default 0, waits := [5000] }

theorem firstWait_run : Engine.Run .default blankNode firstWait where
  start := rfl
  next i :=
    match i with
    | 0 => .inr (.loop (.tell _ _ _ (0 : Time)))
    | 1 => .inr (.loop (.pause _ _ _))
    | _ + 2 => .inl rfl

/-- A blank node begins with a fast wait. A visit that gives it a record leaves it in the first
sync, though the metadata fails. -/
theorem first_sync_goes_on :
    (∀ i, ∃ a b, (firstWait i).waits = List.replicate a 5000 ++ List.replicate b 60000) ∧
      blankNode.startSync.inFirstSync ∧
      ((visit blankNode.table.self neighbour true).run relapsing
        blankNode.startSync ()).2.1.inFirstSync := by
  have hends := first_sync_ends_once .default blankNode
  have hn : blankNode.startSync.inFirstSync = true := by decide +kernel
  have hserial : Serial blankNode (some true) blankNode.startSync := hn ▸ Serial.start.begin
  have htrace := Activity.run_trace relapsing (visit blankNode.table.self neighbour true)
    blankNode.startSync ()
  have hrun : ((visit blankNode.table.self neighbour true).run relapsing
        blankNode.startSync ()).2.1.stopped = false ∧
      (((visit blankNode.table.self neighbour true).exchanges relapsing
        blankNode.startSync ()).head?.any (·.answer.isOk)) ∧
      recordsOf ((visit blankNode.table.self neighbour true).exchanges relapsing
        blankNode.startSync ()) ≠ [] := by decide +kernel
  generalize (visit blankNode.table.self neighbour true).run relapsing _ _ = r at htrace hrun ⊢
  generalize (visit blankNode.table.self neighbour true).exchanges relapsing _ _ = xs at htrace hrun
  obtain ⟨⟨outcome, known⟩, n', w⟩ := r
  obtain ⟨hrunning, hok, hrecords⟩ := hrun
  obtain ⟨pong, ys, rfl, hiff⟩ := hends.2.2.1 _ _ _ _ _ _ _ _ hserial hn htrace hrunning
  exact ⟨(hends.1 firstWait firstWait_run).2, hn, hiff.mpr ⟨hok, .inr hrecords⟩⟩

end Sync

end SearchOverlay
