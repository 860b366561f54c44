import SearchOverlay.Sync
import SearchOverlay.Proofs.Activity
import SearchOverlay.Proofs.RoutingTable.Settled

/-!
# What a visit does to the routing table

A visit takes up the peer's report if no bucket is full, and evicts the peer if a stage failed.
All other stages leave the table alone. `Visit` says so, and `visit_ensures` proves it stage by
stage, from the last one on: `Closing` is what is left to do once the report is taken up.
-/

namespace SearchOverlay.Sync

/-- What a visit does with the peer at its end. -/
def settle (peer : Contact) : PeerOutcome → RoutingTable → RoutingTable
  | .evicted _, t => (t.evict peer.identity).2
  | .synced _ _, t | .skipped, t => t

/-- The end of a visit that has taken up the report: nothing but the eviction is left to do. -/
structure Closing (peer : Contact) (t : RoutingTable) (outcome : PeerOutcome) (n : LocalNode)
    (xs : List Exchange) : Prop where
  running : n.stopped = false
  table : n.table = settle peer outcome t
  asked : ∀ e ∈ xs, e.peer = peer
  quiet : ∀ e ∈ xs, e.query ≠ .getPeers

theorem Closing.cons {peer : Contact} {t : RoutingTable} {outcome : PeerOutcome} {n : LocalNode}
    {xs : List Exchange} (h : Closing peer t outcome n xs) {q : Query} (hq : q ≠ .getPeers)
    (r : Except CallError q.Reply) : Closing peer t outcome n (⟨peer, q, r⟩ :: xs) :=
  { h with
    asked := List.forall_mem_cons.mpr ⟨rfl, h.asked⟩
    quiet := List.forall_mem_cons.mpr ⟨hq, h.quiet⟩ }

theorem closing_nil {peer : Contact} {t : RoutingTable} {outcome : PeerOutcome} {n : LocalNode}
    (hn : n.stopped = false) (ht : n.table = settle peer outcome t) :
    Closing peer t outcome n [] :=
  ⟨hn, ht, fun _ h => absurd h List.not_mem_nil, fun _ h => absurd h List.not_mem_nil⟩

section Stages

variable {α : Type} {n : LocalNode} {Q : α → LocalNode → List Exchange → Prop} (peer : Contact)

/-- A command that leaves the table alone, to a running node. -/
theorem ensures_tell {c : Command} (hc : c.keepsTable) (hn : n.stopped = false)
    {k : c.Answer → Activity α}
    (h : ∀ a n', n'.stopped = false → n'.table = n.table → (k a).Ensures n' Q) :
    (Activity.tell c k).Ensures n Q := by
  refine .tell fun shown => ?_
  obtain ⟨htable, hstopped⟩ := n.perform_keepsTable shown hc
  exact h _ _ (hstopped.trans hn) htable

theorem setFlag_ensures (known value : Bool) (hn : n.stopped = false) :
    (setFlag known value).Ensures n fun _ n' xs =>
      (∃ b, n' = { n with bootstrapping := b }) ∧ xs = [] := by
  unfold setFlag
  split
  · exact .done ⟨⟨n.bootstrapping, rfl⟩, rfl⟩
  · refine .tell fun shown => .done ?_
    rw [n.perform_of_running hn]
    exact ⟨⟨value, rfl⟩, rfl⟩

/-- A step that sets the flag or leaves it as it is, before what follows. -/
theorem flag_ensures {p : Prop} [Decidable p] (known value : Bool) (hn : n.stopped = false)
    {k : Bool → Activity α}
    (h : ∀ flag b, (k flag).Ensures { n with bootstrapping := b } Q) :
    (if p then setFlag known value >>= k else pure known >>= k).Ensures n Q := by
  split
  · refine .bind ((setFlag_ensures known value hn).imp ?_)
    rintro flag _ _ ⟨⟨b, rfl⟩, rfl⟩
    exact h flag b
  · exact .bind (.done (h known n.bootstrapping))

theorem evict_ensures {Q : PeerOutcome → LocalNode → List Exchange → Prop} (stage : SyncStage)
    (hn : n.stopped = false)
    (h : Q (.evicted stage) { n with table := (n.table.evict peer.identity).2 } []) :
    (evict peer stage).Ensures n Q := by
  refine .tell fun shown => .done ?_
  rw [n.perform_of_running hn]
  exact h

theorem evict_return_ensures {Q : PeerOutcome × Bool → LocalNode → List Exchange → Prop}
    (stage : SyncStage) (flag : Bool) (hn : n.stopped = false)
    (h : Q (.evicted stage, flag) { n with table := (n.table.evict peer.identity).2 } []) :
    (do return (← evict peer stage, flag) : Activity (PeerOutcome × Bool)).Ensures n Q :=
  .bind (evict_ensures peer stage hn (.done h))

theorem pullMetadata_ensures (mine theirs : SyncStatus) (merged : Nat) (hn : n.stopped = false) :
    (pullMetadata peer mine theirs merged).Ensures n (Closing peer n.table) := by
  unfold pullMetadata
  split
  · refine .ask fun r => ?_
    cases r with
    | ok ms =>
      refine ensures_tell rfl hn fun count n' hn' ht => .done (Closing.cons ?_ (by simp) _)
      exact closing_nil hn' ht
    | error e =>
      refine evict_ensures peer .syncMetadata hn (Closing.cons ?_ (by simp) _)
      exact closing_nil hn rfl
  · exact .done (closing_nil hn rfl)

theorem afterResults_ensures (mine theirs : SyncStatus) (pulled merged : Nat) (firstSync : Bool)
    (hn : n.stopped = false) : (afterResults peer mine theirs pulled merged firstSync).Ensures n
      fun r => Closing peer n.table r.1 := by
  refine flag_ensures firstSync false hn fun flag b => ?_
  refine .bind ((pullMetadata_ensures peer mine theirs merged (by exact hn)).imp ?_)
  intro out n' xs h
  refine .done ?_
  rw [List.append_nil]
  exact h

theorem pullResults_ensures (mine theirs : SyncStatus) (firstSync : Bool)
    (hn : n.stopped = false) : (pullResults peer mine theirs firstSync).Ensures n
      fun r => Closing peer n.table r.1 := by
  unfold pullResults
  split
  · refine .ask fun r => ?_
    cases r with
    | ok rs =>
      refine ensures_tell rfl hn fun merged m hm ht => ?_
      refine (afterResults_ensures peer mine theirs rs.length merged firstSync hm).imp ?_
      intro out n' xs h
      rw [ht] at h
      exact h.cons (by simp) _
    | error e =>
      refine evict_return_ensures peer .syncResults firstSync hn (Closing.cons ?_ (by simp) _)
      exact closing_nil hn rfl
  · exact afterResults_ensures peer mine theirs 0 0 firstSync hn

theorem compareStatus_ensures (firstSync : Bool) (hn : n.stopped = false) :
    (compareStatus peer firstSync).Ensures n fun r => Closing peer n.table r.1 := by
  refine .ask fun r => ?_
  cases r with
  | error e =>
    refine evict_return_ensures peer .status firstSync hn (Closing.cons ?_ (by simp) _)
    exact closing_nil hn rfl
  | ok theirs =>
    refine ensures_tell rfl hn fun mine m hm ht => ?_
    have hpull : ∀ m : LocalNode, m.stopped = false → m.table = n.table →
        (pullResults peer mine theirs firstSync).Ensures m fun r n' xs =>
          Closing peer n.table r.1 n' (⟨peer, .getStatus, .ok theirs⟩ :: xs) := by
      intro m hm ht
      refine (pullResults_ensures peer mine theirs firstSync hm).imp fun out n' xs h => ?_
      rw [ht] at h
      exact h.cons (by simp) _
    split
    · exact .dropMarker (hpull _ hm ht)
    · exact hpull m hm ht

end Stages

/-! ## Whole visits -/

/-- What the peer's report does to the table. One that is given is pushed while no bucket is
full. -/
inductive Refresh (me : Identity) (peer : Contact) (xs : List Exchange) (t : RoutingTable) :
    RoutingTable → Prop where
  | none (quiet : ∀ cs, ⟨peer, .getPeers, .ok cs⟩ ∉ xs) : Refresh me peer xs t t
  | report {cs : List Contact} (clock shown : Clock) (room : t.isFull = false)
      (heard : ⟨peer, .getPeers, .ok cs⟩ ∈ xs) :
      Refresh me peer xs t (t.pushAll clock (Lookup.reported shown me cs))

theorem Refresh.cons {me : Identity} {peer : Contact} {xs : List Exchange} {t t' : RoutingTable}
    (h : Refresh me peer xs t t') {q : Query} (hq : q ≠ .getPeers) (r : Except CallError q.Reply) :
    Refresh me peer (⟨peer, q, r⟩ :: xs) t t' := by
  cases h with
  | none quiet =>
    refine .none fun cs hmem => ?_
    rcases List.mem_cons.mp hmem with heq | hmem
    · exact hq (congrArg Exchange.query heq).symm
    · exact quiet cs hmem
  | report clock shown room heard => exact .report clock shown room (List.mem_cons_of_mem _ heard)

/-- What a visit of `peer` does to the table, when `xs` are its exchanges. -/
structure Visit (me : Identity) (peer : Contact) (t : RoutingTable) (outcome : PeerOutcome)
    (n : LocalNode) (xs : List Exchange) : Prop where
  running : n.stopped = false
  asked : ∀ e ∈ xs, e.peer = peer
  table : ∃ t₁, Refresh me peer xs t t₁ ∧ n.table = settle peer outcome t₁

theorem Visit.cons {me : Identity} {peer : Contact} {t : RoutingTable} {outcome : PeerOutcome}
    {n : LocalNode} {xs : List Exchange} (h : Visit me peer t outcome n xs) {q : Query}
    (hq : q ≠ .getPeers) (r : Except CallError q.Reply) :
    Visit me peer t outcome n (⟨peer, q, r⟩ :: xs) := by
  obtain ⟨t₁, hrefresh, ht⟩ := h.table
  exact ⟨h.running, List.forall_mem_cons.mpr ⟨rfl, h.asked⟩, t₁, hrefresh.cons hq r, ht⟩

theorem Closing.visit {me : Identity} {peer : Contact} {t : RoutingTable} {outcome : PeerOutcome}
    {n : LocalNode} {xs : List Exchange} (h : Closing peer t outcome n xs) :
    Visit me peer t outcome n xs :=
  ⟨h.running, h.asked, t, .none fun _ hmem => h.quiet _ hmem rfl, h.table⟩

theorem Closing.visit_cons {me : Identity} {peer : Contact} {t t₁ : RoutingTable}
    {outcome : PeerOutcome} {n : LocalNode} {xs : List Exchange}
    (h : Closing peer t₁ outcome n xs) {r : Except CallError (List Contact)}
    (hrefresh : Refresh me peer (⟨peer, .getPeers, r⟩ :: xs) t t₁) :
    Visit me peer t outcome n (⟨peer, .getPeers, r⟩ :: xs) :=
  ⟨h.running, List.forall_mem_cons.mpr ⟨rfl, h.asked⟩, t₁, hrefresh, h.table⟩

theorem refreshRouting_ensures {n : LocalNode} (me : Identity) (peer : Contact) (firstSync : Bool)
    (hn : n.stopped = false) : (refreshRouting me peer firstSync).Ensures n
      fun r => Visit me peer n.table r.1 := by
  refine .tell fun shown => ?_
  rw [n.perform_of_running hn]
  show Activity.Ensures (if n.table.isFull then _ else _) n _
  split
  · exact (compareStatus_ensures peer firstSync hn).imp fun _ _ _ h => h.visit
  · next hroom =>
    have hroom : n.table.isFull = false := Bool.eq_false_iff.mpr hroom
    refine .ask fun r => ?_
    cases r with
    | ok cs =>
      refine .clock fun shown => .tell fun clock => ?_
      rw [n.perform_of_running hn]
      refine (compareStatus_ensures peer firstSync (by exact hn)).imp fun r n' xs h => ?_
      exact h.visit_cons (.report clock shown hroom List.mem_cons_self)
    | error e =>
      refine evict_return_ensures peer .refreshRouting firstSync hn ?_
      exact (closing_nil (by exact hn) rfl).visit_cons (.none (by simp))

theorem visit_ensures {n : LocalNode} (me peer : Contact) (firstSync : Bool)
    (hn : n.stopped = false) : (visit me peer firstSync).Ensures n
      fun r => Visit me.identity peer n.table r.1 := by
  refine .ask fun pong => ?_
  cases pong with
  | ok id =>
    refine flag_ensures firstSync _ hn fun flag b => ?_
    refine (refreshRouting_ensures me.identity peer flag (by exact hn)).imp fun r n' xs h => ?_
    exact h.cons (by simp) _
  | error e =>
    refine flag_ensures firstSync _ hn fun flag b => ?_
    show Activity.Ensures (if e.isBootstrapping then _ else _) _ _
    split
    · exact .done ((closing_nil (by exact hn) rfl).cons (by simp) _).visit
    · refine evict_return_ensures peer .ping flag (by exact hn) ?_
      exact ((closing_nil (by exact hn) rfl).cons (by simp) _).visit

end SearchOverlay.Sync
