import SearchOverlay.Proofs.Sync.Visit

/-!
# The calls of a visit

A visit has a plan: the ping, the report of neighbours if there is room for it, the watermarks,
and the pulls that they call for. `Course` says that the exchanges with a peer follow a plan up
to the first query that fails. A visit is such a course, what it failed of is its outcome, and
the store has taken up what was pulled before.
-/

namespace SearchOverlay

/-- The stage that a query of a visit belongs to. -/
def Query.stage? : Query → Option SyncStage
  | ping _ => some .ping
  | getPeers => some .refreshRouting
  | getStatus => some .status
  | getResultsSince _ _ => some .syncResults
  | getMetadataSince _ _ => some .syncMetadata
  | getMetadataOf _ => none

namespace Sync

/-- The watermarks that a peer answered with, if it did. -/
def reportedStatus : List Exchange → SyncStatus
  | [] => ⟨0, 0⟩
  | ⟨_, .getStatus, .ok theirs⟩ :: _ => theirs
  | _ :: xs => reportedStatus xs

/-- What an exchange brings into the store. -/
def takeUp (s : Store) : Exchange → Store
  | ⟨_, .getResultsSince _ _, .ok rs⟩ => (s.mergeRecords rs).2
  | ⟨_, .getMetadataSince _ _, .ok ms⟩ => (s.mergeMetadata ms).2
  | _ => s

/-- What an exchange adds to the counts of the records and the metadata that changed a store. -/
def count (c : Nat × Nat) (s : Store) : Exchange → Nat × Nat
  | ⟨_, .getResultsSince _ _, .ok rs⟩ => ((s.mergeRecords rs).1 + c.1, c.2)
  | ⟨_, .getMetadataSince _ _, .ok ms⟩ => (c.1, (s.mergeMetadata ms).1 + c.2)
  | _ => c

/-- The counts behind exchanges, each of which meets the store as the ones before it left it. -/
def counted (c : Nat × Nat) (s : Store) : List Exchange → Nat × Nat
  | [] => c
  | x :: xs => counted (count c s x) (takeUp s x) xs

/-! ## Plans -/

def metadataPlan (mine theirs : SyncStatus) : List Query :=
  if mine.metadata < theirs.metadata then [.getMetadataSince mine.metadata Call.maxBatch] else []

def resultsPlan (mine theirs : SyncStatus) : List Query :=
  if mine.results < theirs.results then
    .getResultsSince mine.results Call.maxBatch :: metadataPlan mine theirs
  else metadataPlan mine theirs

def statusPlan (mine theirs : SyncStatus) : List Query := .getStatus :: resultsPlan mine theirs

def refreshPlan (full : Bool) (mine theirs : SyncStatus) : List Query :=
  if full then statusPlan mine theirs else .getPeers :: statusPlan mine theirs

/-- The queries of a visit in order, of a node with some bucket full or with none. -/
def plan (me : Contact) (full : Bool) (mine theirs : SyncStatus) : List Query :=
  .ping me :: refreshPlan full mine theirs

/-- The exchanges of a plan, up to the first query that fails. -/
inductive Course (peer : Contact) :
    List Query → List Exchange → Option (Query × CallError) → Prop where
  | finished : Course peer [] [] none
  | failed (q : Query) (e : CallError) (rest : List Query) :
      Course peer (q :: rest) [⟨peer, q, .error e⟩] (some (q, e))
  | answered (q : Query) (a : q.Reply) {rest : List Query} {xs : List Exchange}
      {failure : Option (Query × CallError)} (later : Course peer rest xs failure) :
      Course peer (q :: rest) (⟨peer, q, .ok a⟩ :: xs) failure

variable {peer : Contact} {q : Query} {queries : List Query} {xs : List Exchange}
  {failure : Option (Query × CallError)} {outcome : PeerOutcome} {n : LocalNode} {s : Store}

theorem Course.asked (h : Course peer queries xs failure) : ∀ e ∈ xs, e.peer = peer := by
  induction h with
  | finished => exact fun e he => absurd he List.not_mem_nil
  | failed q e rest => simp
  | answered q a later ih => exact List.forall_mem_cons.mpr ⟨rfl, ih⟩

theorem Course.in_order (h : Course peer queries xs failure) :
    xs.map (·.query) <+: queries := by
  induction h with
  | finished => exact List.prefix_refl []
  | failed q e rest => exact List.prefix_append [q] rest
  | answered q a later ih => exact (List.prefix_cons_inj q).mpr ih

theorem Course.complete (h : Course peer queries xs none) : xs.map (·.query) = queries := by
  generalize hnone : none = failure at h
  induction h with
  | finished => rfl
  | failed q e rest => cases hnone
  | answered q a later ih => exact congrArg (q :: ·) (ih hnone)

/-- Whatever fails is the failure of the course, and nothing comes after it. -/
theorem Course.failure_eq {before after : List Exchange} {x : Exchange}
    (h : Course peer queries xs failure) (hxs : xs = before ++ x :: after)
    (hx : ¬ x.answer.isOk) :
    after = [] ∧ ∃ q e, x = ⟨peer, q, .error e⟩ ∧ failure = some (q, e) := by
  induction h generalizing before with
  | finished => simp at hxs
  | failed q e rest =>
    cases before with
    | nil =>
      cases hxs
      exact ⟨rfl, q, e, rfl, rfl⟩
    | cons y before => simp at hxs
  | answered q a later ih =>
    cases before with
    | nil =>
      cases hxs
      exact absurd rfl hx
    | cons y before =>
      cases hxs
      exact ih rfl

theorem Course.split {q : Query} {e : CallError} (h : Course peer queries xs (some (q, e))) :
    ∃ before, xs = before ++ [⟨peer, q, .error e⟩] ∧ ∀ x ∈ before, x.answer.isOk := by
  generalize hsome : some (q, e) = failure at h
  induction h with
  | finished => cases hsome
  | failed q e rest =>
    cases hsome
    exact ⟨[], rfl, fun _ h => absurd h List.not_mem_nil⟩
  | answered q a later ih =>
    obtain ⟨before, rfl, hok⟩ := ih hsome
    exact ⟨⟨peer, q, .ok a⟩ :: before, rfl, List.forall_mem_cons.mpr ⟨rfl, hok⟩⟩

theorem Course.mem_of_failure {q : Query} {e : CallError}
    (h : Course peer queries xs (some (q, e))) : q ∈ queries := by
  obtain ⟨before, rfl, -⟩ := h.split
  exact h.in_order.subset (by simp)

theorem stage_of_mem_metadataPlan {mine theirs : SyncStatus} (h : q ∈ metadataPlan mine theirs) :
    q.stage? = some .syncMetadata := by
  unfold metadataPlan at h
  split at h
  · rw [List.mem_singleton.mp h, Query.stage?]
  · cases h

/-- Only the first query of a visit is a ping. -/
theorem stage_of_mem_refreshPlan {full : Bool} {mine theirs : SyncStatus}
    (h : q ∈ refreshPlan full mine theirs) : q.stage? ≠ some .ping := by
  have hmetadata : ∀ q ∈ metadataPlan mine theirs, q.stage? ≠ some .ping := by
    intro q hq
    simp [stage_of_mem_metadataPlan hq]
  have hresults : ∀ q ∈ resultsPlan mine theirs, q.stage? ≠ some .ping := by
    unfold resultsPlan
    split
    · exact List.forall_mem_cons.mpr ⟨by simp [Query.stage?], hmetadata⟩
    · exact hmetadata
  have hstatus : ∀ q ∈ statusPlan mine theirs, q.stage? ≠ some .ping :=
    List.forall_mem_cons.mpr ⟨by simp [Query.stage?], hresults⟩
  unfold refreshPlan at h
  split at h
  · exact hstatus q h
  · exact List.forall_mem_cons.mpr ⟨by simp [Query.stage?], hstatus⟩ q h

/-! ## Outcomes -/

/-- What a visit comes to that fails of a query. Only a ping that finds the peer in its first
sync is no reason to evict it. -/
def outcomeOf (q : Query) (e : CallError) : Option PeerOutcome :=
  if q.stage? = some .ping ∧ e.isBootstrapping then some .skipped else q.stage?.map .evicted

theorem outcomeOf_eq_skipped_iff {e : CallError} :
    outcomeOf q e = some .skipped ↔ q.stage? = some .ping ∧ e.isBootstrapping := by
  unfold outcomeOf
  split <;> simp_all

theorem outcomeOf_eq_evicted_iff {e : CallError} {stage : SyncStage} :
    outcomeOf q e = some (.evicted stage) ↔
      q.stage? = some stage ∧ ¬ (stage = .ping ∧ e.isBootstrapping) := by
  unfold outcomeOf
  split
  · next h => simp [h, eq_comm]
  · next h => cases hq : q.stage? <;> simp_all

theorem outcomeOf_ne_synced {e : CallError} {results metadata : Nat} :
    outcomeOf q e ≠ some (.synced results metadata) := by
  unfold outcomeOf
  split
  · simp
  · cases q.stage? <;> simp

/-- Whether an outcome is that of a course. -/
def Verdict (outcome : PeerOutcome) : Option (Query × CallError) → Prop
  | none => ∃ results metadata, outcome = .synced results metadata
  | some (q, e) => outcomeOf q e = some outcome

/-- Who is skipped has been pinged and nothing else. -/
theorem Course.of_skipped {me : Contact} {full : Bool} {mine theirs : SyncStatus}
    (h : Course peer (plan me full mine theirs) xs failure) (hv : Verdict .skipped failure) :
    ∃ e, xs = [⟨peer, .ping me, .error e⟩] ∧ e.isBootstrapping := by
  cases h with
  | failed q e rest => exact ⟨e, rfl, (outcomeOf_eq_skipped_iff.mp hv).2⟩
  | @answered q a _ xs _ later =>
    cases failure with
    | none =>
      obtain ⟨results, metadata, hout⟩ := hv
      cases hout
    | some f =>
      have hstage := (outcomeOf_eq_skipped_iff.mp hv).1
      exact absurd hstage (stage_of_mem_refreshPlan later.mem_of_failure)

theorem Course.of_synced {results metadata : Nat} (h : Course peer queries xs failure)
    (hv : Verdict (.synced results metadata) failure) : xs.map (·.query) = queries := by
  cases failure with
  | none => exact h.complete
  | some f => exact absurd hv outcomeOf_ne_synced

theorem Course.of_evicted {stage : SyncStage} (h : Course peer queries xs failure)
    (hv : Verdict (.evicted stage) failure) : ∃ before q e,
      xs = before ++ [⟨peer, q, .error e⟩] ∧ (∀ x ∈ before, x.answer.isOk) ∧
        q.stage? = some stage ∧ ¬ (stage = .ping ∧ e.isBootstrapping) := by
  cases failure with
  | none =>
    obtain ⟨results, metadata, hout⟩ := hv
    cases hout
  | some f =>
    obtain ⟨before, hxs, hok⟩ := h.split
    exact ⟨before, f.1, f.2, hxs, hok, outcomeOf_eq_evicted_iff.mp hv⟩

theorem Course.outcome_of_failed {e : CallError} (h : Course peer queries xs failure)
    (hv : Verdict outcome failure) (hmem : ⟨peer, q, .error e⟩ ∈ xs) :
    outcomeOf q e = some outcome := by
  obtain ⟨before, after, hxs⟩ := List.append_of_mem hmem
  obtain ⟨-, q', e', hx, rfl⟩ := h.failure_eq hxs (by simp [Except.isOk, Except.toBool])
  cases hx
  exact hv

theorem Course.skipped_iff {me : Contact} {full : Bool} {mine theirs : SyncStatus}
    (h : Course peer (plan me full mine theirs) xs failure) (hv : Verdict outcome failure) :
    outcome = .skipped ↔ ∃ e, ⟨peer, .ping me, .error e⟩ ∈ xs ∧ e.isBootstrapping := by
  constructor
  · intro hout
    obtain ⟨e, rfl, he⟩ := h.of_skipped (hout ▸ hv)
    exact ⟨e, List.mem_cons_self, he⟩
  · rintro ⟨e, hmem, he⟩
    have hout := h.outcome_of_failed hv hmem
    rw [outcomeOf_eq_skipped_iff.mpr ⟨rfl, he⟩] at hout
    exact (Option.some.inj hout).symm

theorem Course.evicted_iff (h : Course peer queries xs failure) (hv : Verdict outcome failure)
    {stage : SyncStage} : outcome = .evicted stage ↔ ∃ before q e after,
      xs = before ++ ⟨peer, q, .error e⟩ :: after ∧ (∀ x ∈ before, x.answer.isOk) ∧
        q.stage? = some stage ∧ ¬ (stage = .ping ∧ e.isBootstrapping) := by
  constructor
  · intro hout
    obtain ⟨before, q, e, hxs, hfirst⟩ := h.of_evicted (hout ▸ hv)
    exact ⟨before, q, e, [], hxs, hfirst⟩
  · rintro ⟨before, q, e, after, rfl, -, hstage⟩
    have hout := h.outcome_of_failed hv (List.mem_append_right before List.mem_cons_self)
    rw [outcomeOf_eq_evicted_iff.mpr hstage] at hout
    exact (Option.some.inj hout).symm

/-- The rest of a visit with a store and the counts so far: the exchanges follow the plan, the
store takes up what they bring, and what is reported of them in the end are the counts. -/
structure Rest (peer : Contact) (queries : List Query) (c : Nat × Nat) (s : Store)
    (outcome : PeerOutcome) (n : LocalNode) (xs : List Exchange) : Prop where
  course : ∃ failure, Course peer queries xs failure ∧ Verdict outcome failure
  store : n.store = xs.foldl takeUp s
  counts : ∀ results metadata, outcome = .synced results metadata →
    counted c s xs = (results, metadata)

theorem rest_synced {results metadata : Nat} (h : n.store = s) :
    Rest peer [] (results, metadata) s (.synced results metadata) n [] where
  course := ⟨none, .finished, results, metadata, rfl⟩
  store := h
  counts _ _ hout := by
    cases hout
    rfl

theorem rest_failed {c : Nat × Nat} {e : CallError} (hverdict : outcomeOf q e = some outcome)
    (hs : n.store = s) : Rest peer (q :: queries) c s outcome n [⟨peer, q, .error e⟩] where
  course := ⟨some (q, e), .failed q e queries, hverdict⟩
  store := hs.trans (by cases q <;> rfl)
  counts _ _ hout := absurd (hout ▸ hverdict) outcomeOf_ne_synced

theorem Rest.answered {c : Nat × Nat} {a : q.Reply}
    (h : Rest peer queries (count c s ⟨peer, q, .ok a⟩) (takeUp s ⟨peer, q, .ok a⟩) outcome n xs) :
    Rest peer (q :: queries) c s outcome n (⟨peer, q, .ok a⟩ :: xs) := by
  obtain ⟨failure, hcourse, hverdict⟩ := h.course
  exact ⟨⟨failure, hcourse.answered q a, hverdict⟩, h.store, h.counts⟩

section Stages

variable {α : Type} (peer : Contact)

theorem pullMetadata_rest (mine theirs : SyncStatus) (merged : Nat) (hn : n.stopped = false) :
    (pullMetadata peer mine theirs merged).Ensures n
      (Rest peer (metadataPlan mine theirs) (merged, 0) n.store) := by
  unfold pullMetadata metadataPlan
  split
  · refine .ask fun r => ?_
    cases r with
    | ok ms =>
      refine .tell fun shown => .done ?_
      rw [n.perform_of_running hn]
      exact .answered (rest_synced (by rfl))
    | error e => exact evict_ensures peer .syncMetadata hn (rest_failed rfl rfl)
  · exact .done (rest_synced rfl)

theorem afterResults_rest (mine theirs : SyncStatus) (pulled merged : Nat) (firstSync : Bool)
    (hn : n.stopped = false) : (afterResults peer mine theirs pulled merged firstSync).Ensures n
      fun r => Rest peer (metadataPlan mine theirs) (merged, 0) n.store r.1 := by
  refine flag_ensures firstSync false hn fun flag b => ?_
  refine .bind ((pullMetadata_rest peer mine theirs merged (by exact hn)).imp ?_)
  intro outcome n' xs h
  refine .done ?_
  rw [List.append_nil]
  exact h

theorem pullResults_rest (mine theirs : SyncStatus) (firstSync : Bool) (hn : n.stopped = false) :
    (pullResults peer mine theirs firstSync).Ensures n
      fun r => Rest peer (resultsPlan mine theirs) (0, 0) n.store r.1 := by
  unfold pullResults resultsPlan
  split
  · refine .ask fun r => ?_
    cases r with
    | ok rs =>
      refine .tell fun shown => ?_
      rw [n.perform_of_running hn]
      refine (afterResults_rest peer mine theirs rs.length _ firstSync (by exact hn)).imp ?_
      exact fun r n' xs h => h.answered
    | error e => exact evict_return_ensures peer .syncResults firstSync hn (rest_failed rfl rfl)
  · exact afterResults_rest peer mine theirs 0 0 firstSync hn

/-- A pull of records that fails evicts the peer, and nothing after it evicts for that stage. -/
theorem pullResults_evicted_iff {σ : Type} (o : Outside σ) (w : σ) {mine theirs : SyncStatus}
    (firstSync : Bool) (hn : n.stopped = false) (hahead : mine.results < theirs.results) :
    ((pullResults peer mine theirs firstSync).run o n w).1.1 = .evicted .syncResults ↔
      ∃ e, (o.answer w peer (.getResultsSince mine.results Call.maxBatch)).1 = .error e := by
  obtain ⟨failure, hcourse, hverdict⟩ :=
    (pullResults_rest peer mine theirs firstSync hn σ o w).course
  obtain ⟨xs, hxs⟩ : ∃ xs, (pullResults peer mine theirs firstSync).exchanges o n w =
      ⟨peer, .getResultsSince mine.results Call.maxBatch, (o.answer w peer _).1⟩ :: xs := by
    rw [pullResults, if_pos hahead]
    exact ⟨_, rfl⟩
  rw [hcourse.evicted_iff hverdict, hxs]
  rw [hxs, resultsPlan, if_pos hahead] at hcourse
  generalize (o.answer w peer _).1 = answer at hcourse ⊢
  constructor
  · rintro ⟨before, q, e, after, hsplit, -, hstage, -⟩
    cases before with
    | nil =>
      cases hsplit
      exact ⟨e, rfl⟩
    | cons x before =>
      obtain ⟨-, rfl⟩ := List.cons.inj hsplit
      have hmem : q ∈ metadataPlan mine theirs :=
        ((List.prefix_cons_inj _).mp hcourse.in_order).subset (by simp)
      cases hstage.symm.trans (stage_of_mem_metadataPlan hmem)
  · rintro ⟨e, rfl⟩
    exact ⟨[], _, e, xs, rfl, fun _ h => absurd h List.not_mem_nil, rfl, by simp⟩

theorem compareStatus_rest (firstSync : Bool) (hn : n.stopped = false) :
    (compareStatus peer firstSync).Ensures n fun r n' xs =>
      Rest peer (statusPlan n.store.status (reportedStatus xs)) (0, 0) n.store r.1 n' xs := by
  refine .ask fun r => ?_
  cases r with
  | error e => exact evict_return_ensures peer .status firstSync hn (rest_failed rfl rfl)
  | ok theirs =>
    refine .tell fun shown => ?_
    rw [n.perform_of_running hn]
    show Activity.Ensures (if firstSync && caughtUp n.store.status theirs then _ else _) n _
    split
    · refine .dropMarker ((pullResults_rest peer _ theirs firstSync (by exact hn)).imp ?_)
      exact fun r n' xs h => h.answered
    · exact (pullResults_rest peer _ theirs firstSync hn).imp fun r n' xs h => h.answered

theorem refreshRouting_rest (me : Identity) (firstSync : Bool) (hn : n.stopped = false) :
    (refreshRouting me peer firstSync).Ensures n fun r n' xs =>
      Rest peer (refreshPlan n.table.isFull n.store.status (reportedStatus xs)) (0, 0) n.store r.1
        n' xs := by
  unfold refreshPlan
  refine .tell fun shown => ?_
  rw [n.perform_of_running hn]
  show Activity.Ensures (if n.table.isFull then _ else _) n _
  split
  · exact compareStatus_rest peer firstSync hn
  · refine .ask fun r => ?_
    cases r with
    | error e =>
      exact evict_return_ensures peer .refreshRouting firstSync hn (rest_failed rfl rfl)
    | ok cs =>
      refine .clock fun shown => .tell fun shown => ?_
      rw [n.perform_of_running hn]
      exact (compareStatus_rest peer firstSync (by exact hn)).imp fun r n' xs h => h.answered

end Stages

theorem Refresh.eq_of_not_heard {me : Identity} {t t' : RoutingTable}
    (h : Refresh me peer xs t t') (hquiet : ∀ cs, ⟨peer, .getPeers, .ok cs⟩ ∉ xs) : t' = t := by
  cases h with
  | none quiet => rfl
  | report clock shown room heard => exact absurd heard (hquiet _)

theorem visit_rest (me peer : Contact) (firstSync : Bool) (hn : n.stopped = false) :
    (visit me peer firstSync).Ensures n fun r n' xs =>
      Rest peer (plan me n.table.isFull n.store.status (reportedStatus xs)) (0, 0) n.store r.1
        n' xs := by
  refine .ask fun pong => ?_
  cases pong with
  | ok id =>
    refine flag_ensures firstSync _ hn fun flag b => ?_
    refine (refreshRouting_rest peer me.identity flag (by exact hn)).imp fun r n' xs h => ?_
    exact h.answered
  | error e =>
    refine flag_ensures firstSync _ hn fun flag b => ?_
    show Activity.Ensures (if e.isBootstrapping then _ else _) _ _
    split
    · next hsentinel =>
      exact .done (rest_failed (by simp [outcomeOf, Query.stage?, hsentinel]) rfl)
    · next hsentinel =>
      refine evict_return_ensures peer .ping flag (by exact hn) ?_
      exact rest_failed (by simp [outcomeOf, Query.stage?, hsentinel]) rfl

/-- The calls of a visit are those of its plan, in order, up to the first that fails. The peer
is skipped if and only if the ping finds it in its first sync, which changes nothing; it is
evicted for a stage if and only if the first failure is the one of that stage, which is the last
call. The store takes up what was pulled before; the counts of a visit that goes to its end are
those of the entries that changed it. -/
theorem visit_follows_plan {σ : Type} (o : Outside σ) (n : LocalNode) (w : σ) (me peer : Contact)
    (firstSync : Bool) (hn : n.stopped = false) :
    let xs := (visit me peer firstSync).exchanges o n w
    let outcome := ((visit me peer firstSync).run o n w).1.1
    let n' := ((visit me peer firstSync).run o n w).2.1
    let queries := plan me n.table.isFull n.store.status (reportedStatus xs)
    ((∀ x ∈ xs, x.peer = peer) ∧ xs.map (·.query) <+: queries ∧
      ∀ results metadata, outcome = .synced results metadata →
        xs.map (·.query) = queries ∧ counted (0, 0) n.store xs = (results, metadata)) ∧
    ((outcome = .skipped ↔ ∃ e, ⟨peer, .ping me, .error e⟩ ∈ xs ∧ e.isBootstrapping) ∧
      (outcome = .skipped → xs.length = 1 ∧ n'.table = n.table ∧ n'.store = n.store)) ∧
    ((∀ stage, outcome = .evicted stage ↔ ∃ before q e after,
        xs = before ++ ⟨peer, q, .error e⟩ :: after ∧ (∀ x ∈ before, x.answer.isOk) ∧
          q.stage? = some stage ∧ ¬ (stage = .ping ∧ e.isBootstrapping)) ∧
      ∀ before x after, xs = before ++ x :: after → ¬ x.answer.isOk → after = []) ∧
    (∃ t, Refresh me.identity peer xs n.table t ∧ n'.table = settle peer outcome t) ∧
    n'.store = xs.foldl takeUp n.store := by
  intro xs outcome n' queries
  have hrest : Rest peer queries (0, 0) n.store outcome n' xs :=
    visit_rest me peer firstSync hn σ o w
  have hvisit : Visit me.identity peer n.table outcome n' xs :=
    visit_ensures me peer firstSync hn σ o w
  obtain ⟨⟨failure, hcourse, hverdict⟩, hstore, hcounts⟩ := hrest
  obtain ⟨t, hrefresh, htable⟩ := hvisit.table
  refine ⟨⟨hcourse.asked, hcourse.in_order, ?_⟩, ⟨hcourse.skipped_iff hverdict, fun hout => ?_⟩,
    ⟨fun stage => hcourse.evicted_iff hverdict, ?_⟩, ⟨t, hrefresh, htable⟩, hstore⟩
  · exact fun results metadata hout => ⟨hcourse.of_synced (hout ▸ hverdict), hcounts _ _ hout⟩
  · obtain ⟨e, hxs, -⟩ := hcourse.of_skipped (hout ▸ hverdict)
    rw [hout] at htable
    rw [hxs] at hrefresh hstore ⊢
    have hquiet : t = n.table := hrefresh.eq_of_not_heard (by simp)
    exact ⟨rfl, htable.trans hquiet, hstore⟩
  · exact fun before x after hxs hx => (hcourse.failure_eq hxs hx).1

/-- A node that knows nobody and holds nothing. -/
def blankNode : LocalNode :=
  ⟨.new ⟨.zero, "s", 1, 0⟩, .empty, false, .empty, false, none, false⟩

def neighbour : Contact := ⟨⟨0, 0, 0, 0, 1⟩, "a", 3, 0⟩

/-- Peers with one record, which enter their first sync before the metadata is pulled. -/
def relapsing : Outside Unit where
  answer _ peer q :=
    match q with
    | .ping _ => (.ok peer.identity, ())
    | .getPeers => (.ok [], ())
    | .getStatus => (.ok ⟨3, 4⟩, ())
    | .getResultsSince _ _ => (.ok [⟨.zero, "u", "t", "s", 3⟩], ())
    | .getMetadataSince _ _ | .getMetadataOf _ => (.error (.remote .bootstrapping), ())
  look _ := ((7 : Time), ())

/-- The last of five calls finds the peer in its first sync: it is evicted all the same, and
its record is kept. -/
theorem visit_follows_plan_of_five :
    let xs := (visit blankNode.table.self neighbour false).exchanges relapsing blankNode ()
    let n' := ((visit blankNode.table.self neighbour false).run relapsing blankNode ()).2.1
    ((visit blankNode.table.self neighbour false).run relapsing blankNode ()).1.1 =
        .evicted .syncMetadata ∧
      xs.map (·.query) = [.ping blankNode.table.self, .getPeers, .getStatus,
        .getResultsSince 0 2048, .getMetadataSince 0 2048] ∧
      n'.store = xs.foldl takeUp blankNode.store ∧ n'.store.status = ⟨3, 0⟩ := by
  intro xs n'
  have hstore : n'.store = xs.foldl takeUp blankNode.store :=
    (visit_follows_plan relapsing blankNode () blankNode.table.self neighbour false rfl).2.2.2.2
  have hrun : ((visit blankNode.table.self neighbour false).run relapsing blankNode ()).1.1 =
        .evicted .syncMetadata ∧
      xs.map (·.query) = [.ping blankNode.table.self, .getPeers, .getStatus,
        .getResultsSince 0 2048, .getMetadataSince 0 2048] ∧ n'.store.status = ⟨3, 0⟩ := by
    decide +kernel
  exact ⟨hrun.1, hrun.2.1, hstore, hrun.2.2⟩

end Sync

end SearchOverlay
