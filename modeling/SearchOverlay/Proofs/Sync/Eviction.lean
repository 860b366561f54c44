import SearchOverlay.Proofs.RoutingTable.Reachable
import SearchOverlay.Proofs.Sync.Visit

/-!
# Peers evicted in a cycle

`Tour` strings visits together. A peer that a cycle evicts is settled in the table until then:
it is a neighbour when the cycle begins, and neither reports nor other evictions unsettle it. So
the eviction removes it, and it comes back only if a peer that is visited later names it in its
report. `evicted_stays_away` is the statement about a whole cycle; `evicted_comes_back` is a
cycle in which a later report brings the peer back.
-/

namespace SearchOverlay

namespace Sync

open RoutingTable (Settled)

variable {me id : Identity} {peer : Contact} {t t' : RoutingTable} {outcome : PeerOutcome}
  {n : LocalNode} {xs : List Exchange}

/-! ## One visit -/

theorem Refresh.sound (h : Refresh me peer xs t t') (ht : t.Sound) : t'.Sound := by
  cases h with
  | none quiet => exact ht
  | report clock shown room heard => exact ht.pushFrom clock 0 _

theorem Refresh.settled (h : Refresh me peer xs t t') (ht : t.Sound) (hid : t.Settled id) :
    t'.Settled id := by
  cases h with
  | none quiet => exact hid
  | report clock shown room heard => exact ht.settled_report hid room clock shown me _

theorem Refresh.absent (h : Refresh me peer xs t t') (ht : t.Sound) (hid : t.copies id = 0)
    (hquiet : ∀ e ∈ xs, ¬ e.names id) : t'.copies id = 0 := by
  cases h with
  | none quiet => exact hid
  | @report cs clock shown room heard =>
    apply ht.copies_report_of_absent hid clock shown me
    intro hnamed
    exact hquiet _ heard (List.contains_iff_mem.mpr hnamed)

theorem settle_sound (ht : t.Sound) : (settle peer outcome t).Sound := by
  cases outcome with
  | evicted stage => exact ht.evict peer.identity
  | synced results metadata | skipped => exact ht

theorem Visit.sound (h : Visit me peer t outcome n xs) (ht : t.Sound) : n.table.Sound := by
  obtain ⟨t₁, hrefresh, htable⟩ := h.table
  rw [htable]
  exact settle_sound (hrefresh.sound ht)

theorem Visit.settled (h : Visit me peer t outcome n xs) (ht : t.Sound) (hid : t.Settled id) :
    n.table.Settled id := by
  obtain ⟨t₁, hrefresh, htable⟩ := h.table
  have hid₁ := hrefresh.settled ht hid
  rw [htable]
  cases outcome with
  | evicted stage => exact hid₁.evict peer.identity
  | synced results metadata | skipped => exact hid₁

theorem Visit.absent (h : Visit me peer t outcome n xs) (ht : t.Sound) (hid : t.copies id = 0)
    (hquiet : ∀ e ∈ xs, ¬ e.names id) : n.table.copies id = 0 := by
  obtain ⟨t₁, hrefresh, htable⟩ := h.table
  have hid₁ := hrefresh.absent ht hid hquiet
  rw [htable]
  cases outcome with
  | evicted stage =>
    have hevict := (hrefresh.sound ht).copies_evict peer.identity id
    simp only [settle]
    omega
  | synced results metadata | skipped => exact hid₁

/-- A visit that ends with the eviction of a settled peer leaves nothing of it. -/
theorem Visit.evicted {stage : SyncStage} (h : Visit me peer t (.evicted stage) n xs)
    (ht : t.Sound) (hid : t.Settled peer.identity) : n.table.copies peer.identity = 0 := by
  obtain ⟨t₁, hrefresh, htable⟩ := h.table
  rw [htable]
  exact (hrefresh.sound ht).copies_evict_of_settled (hrefresh.settled ht hid)

/-! ## Tours -/

/-- Visits one after the other, with their outcomes and exchanges. -/
inductive Tour (me : Identity) :
    RoutingTable → List (Contact × PeerOutcome) → RoutingTable → List Exchange → Prop where
  | nil (t : RoutingTable) : Tour me t [] t []
  | cons {t t' : RoutingTable} {peer : Contact} {outcome : PeerOutcome} {n : LocalNode}
      {outcomes : List (Contact × PeerOutcome)} {xs ys : List Exchange}
      (first : Visit me peer t outcome n xs) (rest : Tour me n.table outcomes t' ys) :
      Tour me t ((peer, outcome) :: outcomes) t' (xs ++ ys)

theorem Tour.asked {outcomes : List (Contact × PeerOutcome)} (h : Tour me t outcomes t' xs) :
    ∀ e ∈ xs, e.peer ∈ outcomes.map Prod.fst := by
  induction h with
  | nil t => exact fun e he => absurd he List.not_mem_nil
  | cons first rest ih =>
    intro e he
    rw [List.map_cons, List.mem_cons]
    rcases List.mem_append.mp he with he | he
    · exact .inl (first.asked e he)
    · exact .inr (ih e he)

/-- Who is not held and not named stays away. -/
theorem Tour.absent {outcomes : List (Contact × PeerOutcome)} (h : Tour me t outcomes t' xs)
    (ht : t.Sound) (hid : t.copies id = 0) (hquiet : ∀ e ∈ xs, ¬ e.names id) :
    t'.copies id = 0 := by
  induction h with
  | nil t => exact hid
  | cons first rest ih =>
    refine ih (first.sound ht) (first.absent ht hid fun e he => ?_) fun e he => ?_
    · exact hquiet e (List.mem_append_left _ he)
    · exact hquiet e (List.mem_append_right _ he)

theorem Tour.evicted {before after : List (Contact × PeerOutcome)} {stage : SyncStage}
    (h : Tour me t (before ++ (peer, .evicted stage) :: after) t' xs) (ht : t.Sound)
    (hid : t.Settled peer.identity)
    (hquiet : ∀ e ∈ xs, e.peer ∈ after.map Prod.fst → ¬ e.names peer.identity) :
    t'.copies peer.identity = 0 := by
  induction before generalizing t xs with
  | nil =>
    cases h with
    | cons first rest =>
      apply rest.absent (first.sound ht) (first.evicted ht hid)
      intro e he
      exact hquiet e (List.mem_append_right _ he) (rest.asked e he)
  | cons x before ih =>
    cases h with
    | cons first rest =>
      apply ih rest (first.sound ht) (first.settled ht hid)
      intro e he
      exact hquiet e (List.mem_append_right _ he)

/-! ## Cycles -/

theorem visitAll_ensures (me : Contact) (peers : List Contact) (firstSync : Bool)
    (hn : n.stopped = false) : (visitAll me peers firstSync).Ensures n fun outcomes n' xs =>
      Tour me.identity n.table outcomes n'.table xs ∧ outcomes.map Prod.fst ⊆ peers := by
  induction peers generalizing n firstSync with
  | nil => exact .done ⟨.nil n.table, List.Subset.refl _⟩
  | cons p peers ih =>
    unfold visitAll
    split
    · refine (ih firstSync hn).imp fun outcomes n' xs h => ⟨h.1, ?_⟩
      exact List.subset_cons_of_subset p h.2
    · refine .bind ((visit_ensures me p firstSync hn).imp fun r m xs hvisit => ?_)
      refine .bind ((ih r.2 hvisit.running).imp fun outcomes n' ys h => .done ?_)
      rw [List.append_nil]
      exact ⟨.cons hvisit h.1, List.cons_subset_cons p h.2⟩

/-- A cycle is a tour of neighbours. -/
theorem cycle_ensures (n : LocalNode) : cycle.Ensures n fun outcomes n' xs =>
    (∃ me, Tour me n.table outcomes n'.table xs) ∧
      outcomes.map Prod.fst ⊆ n.table.neighbours := by
  refine .bind (.tell fun shown => .done ?_)
  cases hn : n.stopped with
  | true =>
    have hrun : n.perform shown .self = (none, n) := by
      rw [LocalNode.perform, hn]
      rfl
    rw [hrun]
    exact .done ⟨⟨.zero, .nil _⟩, List.nil_subset _⟩
  | false =>
    rw [n.perform_of_running hn]
    refine .bind (.tell fun shown => .done ?_)
    rw [LocalNode.perform_of_running (by exact hn)]
    refine .bind (.tell fun shown => .done ?_)
    rw [LocalNode.perform_of_running (by exact hn)]
    refine (visitAll_ensures n.table.self n.table.neighbours n.bootstrapping hn).imp ?_
    exact fun outcomes n' xs h => ⟨⟨_, h.1⟩, h.2⟩

/-- A peer that a cycle evicts, and that no peer visited later names in its report, is held
nowhere after the cycle, and the next cycle does not contact it. -/
theorem evicted_stays_away {σ : Type} (o : Outside σ) (n : LocalNode) (w : σ)
    (hn : n.table.Reachable) (honce : n.table.HeldOnce)
    {before after : List (Contact × PeerOutcome)} {peer : Contact} {stage : SyncStage}
    (hout : (cycle.run o n w).1 = before ++ (peer, .evicted stage) :: after)
    (hquiet : ∀ e ∈ cycle.exchanges o n w, e.peer ∈ after.map Prod.fst →
      ¬ e.names peer.identity) :
    let n' := (cycle.run o n w).2.1
    peer.identity ∉ ids n'.table.held ∧ peer.identity ∉ ids n'.table.neighbours ∧
      ∀ (τ : Type) (o' : Outside τ) (w' : τ), ∀ e ∈ cycle.exchanges o' n' w',
        e.peer.identity ≠ peer.identity := by
  intro n'
  obtain ⟨⟨me, htour⟩, hsub⟩ := cycle_ensures n σ o w
  rw [hout] at htour hsub
  have hneighbour : peer ∈ n.table.neighbours := hsub (by simp)
  have hsettled := hn.sound.settled_of_mem_neighbours honce hneighbour
  have hgone : n'.table.copies peer.identity = 0 := htour.evicted hn.sound hsettled hquiet
  have haway := RoutingTable.not_mem_neighbours hgone
  refine ⟨RoutingTable.copies_eq_zero.mp hgone, haway, fun τ o' w' e he hpeer => haway ?_⟩
  -- whoever the next cycle asks is a neighbour when it begins
  obtain ⟨⟨me', htour'⟩, hsub'⟩ := cycle_ensures n' τ o' w'
  exact List.mem_map.mpr ⟨e.peer, hsub' (htour'.asked e he), hpeer⟩

/-- A table of `a` and `b`. -/
def tableOfTwo : RoutingTable :=
  (RoutingTable.new ⟨.zero, "s", 1, 0⟩).run
    [.push 5 ⟨⟨0, 0, 0, 0, 1⟩, "a", 3, 0⟩, .push 5 ⟨⟨0, 0, 0, 0, 2⟩, "b", 3, 0⟩]

def nodeOfTwo : LocalNode := ⟨tableOfTwo, .empty, false, .empty, false, none, false⟩

theorem nodeOfTwo_reachable : nodeOfTwo.table.Reachable := by
  simp only [nodeOfTwo]
  exact ⟨_, _, .new _, rfl⟩

/-- Only `b` can be reached, and it reports these contacts. -/
def reporting (cs : List Contact) : Outside Unit where
  answer _ peer q :=
    if peer.address = "a" then (.error (.unreachable "a"), ())
    else
      match q with
      | .ping _ => (.ok peer.identity, ())
      | .getStatus => (.ok ⟨0, 0⟩, ())
      | .getPeers => (.ok cs, ())
      | _ => (.error (.unreachable "b"), ())
  look _ := ((7 : Time), ())

/-- The report of `b` is empty. -/
theorem evicted_stays_away_of_two :
    (cycle.run (reporting []) nodeOfTwo ()).1 =
        [(⟨⟨0, 0, 0, 0, 1⟩, "a", 3, 0⟩, .evicted .ping),
          (⟨⟨0, 0, 0, 0, 2⟩, "b", 3, 0⟩, .synced 0 0)] ∧
      ⟨0, 0, 0, 0, 1⟩ ∉ ids (cycle.run (reporting []) nodeOfTwo ()).2.1.table.neighbours := by
  have honce : nodeOfTwo.table.HeldOnce := by decide +kernel
  have hout : (cycle.run (reporting []) nodeOfTwo ()).1 =
      [] ++ (⟨⟨0, 0, 0, 0, 1⟩, "a", 3, 0⟩, .evicted .ping) ::
        [(⟨⟨0, 0, 0, 0, 2⟩, "b", 3, 0⟩, .synced 0 0)] := by decide +kernel
  have haway := evicted_stays_away (reporting []) nodeOfTwo () nodeOfTwo_reachable honce hout
    (by decide +kernel)
  exact ⟨hout, haway.2.1⟩

/-- The report of `b` names `a`. -/
theorem evicted_comes_back :
    let o := reporting [⟨⟨0, 0, 0, 0, 1⟩, "a", 3, 0⟩]
    nodeOfTwo.table.Reachable ∧ nodeOfTwo.table.HeldOnce ∧
      (⟨⟨0, 0, 0, 0, 1⟩, "a", 3, 0⟩, .evicted .ping) ∈ (cycle.run o nodeOfTwo ()).1 ∧
      ⟨0, 0, 0, 0, 1⟩ ∈ ids (cycle.run o nodeOfTwo ()).2.1.table.neighbours := by
  refine ⟨nodeOfTwo_reachable, ?_⟩
  decide +kernel

end Sync

end SearchOverlay
