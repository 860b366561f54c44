import SearchOverlay.Proofs.Activity
import SearchOverlay.Proofs.RoutingTable.Reachable
import SearchOverlay.Proofs.RoutingTable.Settled

/-!
# What a lookup asks

`Walked` says what is left of a walk that has met `visited` and has `queue` to go: whom it asks,
and why. `walk_ensures` proves it along the recursion of the walk. A walk that ends below the
limit ends with an empty queue, so whoever was queued or reported has been asked by then. That
the walk ends at all is the recursion itself: a query uses up the limit, and everything else
shortens the queue.
-/

namespace SearchOverlay

/-- The members that were asked, in order. -/
def asked (xs : List Exchange) : List Identity := xs.map (·.peer.identity)

@[simp] theorem asked_nil : asked [] = [] := rfl

@[simp] theorem asked_cons (e : Exchange) (xs : List Exchange) :
    asked (e :: xs) = e.peer.identity :: asked xs := rfl

theorem length_asked (xs : List Exchange) : (asked xs).length = xs.length := List.length_map ..

namespace Lookup

variable {me : Identity} {visited : List Identity} {queried total : Nat} {peer : Contact}
  {queue : List Contact} {xs : List Exchange} {e : Exchange}

theorem ids_restamp (clock : Clock) (cs : List Contact) :
    ids (Contact.restamp clock cs) = ids cs := by
  apply List.ext_getElem
  · simp [Contact.restamp]
  · intro i hi hi'
    simp [Contact.restamp, Contact.fresh]

theorem mem_ids_reported {clock : Clock} {cs : List Contact} {id : Identity} :
    id ∈ ids (reported clock me cs) ↔ id ∈ ids cs ∧ id ≠ me := by
  rw [reported, ids_restamp]
  simp only [List.mem_map, List.mem_filter, decide_eq_true_eq]
  constructor
  · rintro ⟨c, ⟨hc, hne⟩, rfl⟩
    exact ⟨⟨c, hc, rfl⟩, hne⟩
  · rintro ⟨⟨c, hc, rfl⟩, hne⟩
    exact ⟨c, ⟨hc, hne⟩, rfl⟩

theorem mem_ids_unmet {clock : Clock} {cs : List Contact} {id : Identity} :
    id ∈ ids ((reported clock me cs).filter fun c => !visited.contains c.identity) ↔
      (id ∈ ids cs ∧ id ≠ me) ∧ id ∉ visited := by
  rw [← @mem_ids_reported me clock]
  simp only [List.mem_map, List.mem_filter, Bool.not_eq_true', ← Bool.not_eq_true,
    List.contains_iff_mem]
  constructor
  · rintro ⟨c, ⟨hc, hne⟩, rfl⟩
    exact ⟨⟨c, hc, rfl⟩, hne⟩
  · rintro ⟨⟨c, hc, rfl⟩, hne⟩
    exact ⟨c, ⟨hc, hne⟩, rfl⟩

/-- What comes of a walk from here on, `xs` being its exchanges. -/
structure Walked (me : Identity) (visited : List Identity) (queried : Nat) (queue : List Contact)
    (total : Nat) (xs : List Exchange) : Prop where
  total_eq : total = queried + xs.length
  total_le : queried ≤ limit → total ≤ limit
  query_eq : ∀ e ∈ xs, e.query = .getPeers
  nodup : (asked xs).Nodup
  unmet : ∀ id ∈ asked xs, id ∉ visited
  heard : ∀ id ∈ asked xs, id ∈ ids queue ∨ ∃ e ∈ xs, e.names id
  closed : total < limit → ∀ id, (id ∈ ids queue ∨ id ≠ me ∧ ∃ e ∈ xs, e.names id) →
    id ∈ visited ∨ id ∈ asked xs

theorem Walked.exhausted (me : Identity) (visited : List Identity) (queried : Nat) :
    Walked me visited queried [] queried [] where
  total_eq := rfl
  total_le h := h
  query_eq _ h := absurd h List.not_mem_nil
  nodup := List.nodup_nil
  unmet _ h := absurd h List.not_mem_nil
  heard _ h := absurd h List.not_mem_nil
  closed _ id h := by simp at h

theorem Walked.stopped (me : Identity) (visited : List Identity) (queue : List Contact)
    (h : limit ≤ queried) : Walked me visited queried queue queried [] where
  total_eq := rfl
  total_le h := h
  query_eq _ h := absurd h List.not_mem_nil
  nodup := List.nodup_nil
  unmet _ h := absurd h List.not_mem_nil
  heard _ h := absurd h List.not_mem_nil
  closed hlt := absurd hlt (Nat.not_lt_of_le h)

theorem Walked.pass (h : Walked me visited queried queue total xs)
    (hmet : peer.identity ∈ visited) : Walked me visited queried (peer :: queue) total xs where
  __ := h
  heard id hid := (h.heard id hid).imp_left (List.mem_cons_of_mem _)
  closed hlt id := by
    rintro (hid | hid)
    · rcases List.mem_cons.mp hid with rfl | hid
      · exact .inl hmet
      · exact h.closed hlt id (.inl hid)
    · exact h.closed hlt id (.inr hid)

/-- The first in the queue is asked, and `found` is queued for the answer. -/
theorem Walked.ask {found : List Contact}
    (h : Walked me (peer.identity :: visited) (queried + 1) (queue ++ found) total xs)
    (hroom : queried < limit) (hnew : peer.identity ∉ visited) (hpeer : e.peer = peer)
    (hquery : e.query = .getPeers)
    (hfound : ∀ id, id ∈ ids found ↔ (e.names id ∧ id ≠ me) ∧ id ∉ peer.identity :: visited) :
    Walked me visited queried (peer :: queue) total (e :: xs) where
  total_eq := by
    rw [h.total_eq, List.length_cons]
    omega
  total_le _ := h.total_le hroom
  query_eq := List.forall_mem_cons.mpr ⟨hquery, h.query_eq⟩
  nodup := by
    rw [asked_cons, hpeer]
    exact List.nodup_cons.mpr ⟨fun hid => h.unmet _ hid List.mem_cons_self, h.nodup⟩
  unmet id hid := by
    rw [asked_cons, hpeer] at hid
    rcases List.mem_cons.mp hid with rfl | hid
    · exact hnew
    · exact fun hv => h.unmet id hid (List.mem_cons_of_mem _ hv)
  heard id hid := by
    rw [asked_cons, hpeer] at hid
    rcases List.mem_cons.mp hid with rfl | hid
    · exact .inl List.mem_cons_self
    · rcases h.heard id hid with hq | ⟨x, hx, hnames⟩
      · rw [ids, List.map_append, List.mem_append] at hq
        rcases hq with hq | hf
        · exact .inl (List.mem_cons_of_mem _ hq)
        · exact .inr ⟨e, List.mem_cons_self, ((hfound id).mp hf).1.1⟩
      · exact .inr ⟨x, List.mem_cons_of_mem _ hx, hnames⟩
  closed hlt id hid := by
    rw [asked_cons, hpeer, List.mem_cons]
    by_cases hmet : id ∈ peer.identity :: visited
    · rcases List.mem_cons.mp hmet with hid | hv
      · exact .inr (.inl hid)
      · exact .inl hv
    · -- whoever is not met waits in the queue now, or is reported later
      have hlater : id ∈ ids (queue ++ found) ∨ id ≠ me ∧ ∃ x ∈ xs, x.names id := by
        rw [ids, List.map_append, List.mem_append]
        rcases hid with hid | ⟨hne, x, hx, hnames⟩
        · have hself : id ≠ peer.identity := fun h => hmet (h ▸ List.mem_cons_self)
          exact .inl (.inl ((List.mem_cons.mp hid).resolve_left hself))
        · rcases List.mem_cons.mp hx with rfl | hx
          · exact .inl (.inr ((hfound id).mpr ⟨⟨hnames, hne⟩, hmet⟩))
          · exact .inr ⟨hne, x, hx, hnames⟩
      exact .inr (.inr ((h.closed hlt id hlater).resolve_left hmet))

/-- The walk, whatever the node does with its commands. -/
theorem walk_ensures (me : Identity) (visited : List Identity) (queried : Nat)
    (queue : List Contact) (n : LocalNode) : (walk me visited queried queue).Ensures n
      fun total _ xs => Walked me visited queried queue total xs := by
  induction visited, queried, queue using walk.induct me generalizing n with
  | case1 visited queried =>
    rw [walk]
    exact .done (.exhausted me visited queried)
  | case2 visited queried peer queue hlimit =>
    rw [walk, if_pos hlimit]
    exact .done (.stopped me visited _ hlimit)
  | case3 visited queried peer queue hlimit hmet ih =>
    rw [walk, if_neg hlimit, if_pos hmet]
    exact (ih n).imp fun _ _ _ h => h.pass (List.contains_iff_mem.mp hmet)
  | case4 visited queried peer queue hlimit hnew visited' ihOk ihError =>
    rw [walk, if_neg hlimit, if_neg hnew]
    have hroom : queried < limit := Nat.lt_of_not_le hlimit
    have hnew : peer.identity ∉ visited := fun h => hnew (List.contains_iff_mem.mpr h)
    refine .ask fun r => ?_
    cases r with
    | ok cs =>
      refine .clock fun clock => .tell fun _ => (ihOk cs clock _).imp fun total _ xs h => ?_
      refine h.ask hroom hnew rfl rfl fun id => mem_ids_unmet.trans ?_
      exact and_congr_left fun _ => and_congr_left fun _ => Exchange.names_report.symm
    | error err =>
      refine .tell fun _ => (ihError _).imp fun total _ xs h => ?_
      rw [← List.append_nil queue] at h
      exact h.ask hroom hnew rfl rfl fun id => by simp [Exchange.names]

theorem run_ensures {n : LocalNode} (hn : n.stopped = false) : run.Ensures n fun total _ xs =>
    ∃ k, total = some k ∧ Walked n.table.identity [n.table.identity] 0 n.table.neighbours k xs := by
  refine .bind (.tell fun shown => .done ?_)
  rw [n.perform_of_running hn]
  refine .bind (.tell fun shown => .done ?_)
  rw [LocalNode.perform_of_running (by exact hn)]
  show Activity.Ensures (walk n.table.identity _ 0 n.table.neighbours >>= fun k => pure (some k))
    n _
  refine .bind ((walk_ensures _ _ _ _ n).imp fun total n' xs h => .done ⟨total, rfl, ?_⟩)
  rw [List.append_nil]
  exact h

/-- A lookup ends with the number of its queries, whatever the peers report. It asks nobody
twice, and the node itself never. Unless it stops at the limit, it has asked exactly the
neighbours of the beginning and whoever was named to it. -/
theorem lookup_closed {σ : Type} (o : Outside σ) (n : LocalNode) (w : σ)
    (hn : n.stopped = false) (ht : n.table.Reachable) :
    let xs := run.exchanges o n w
    (run.run o n w).1 = some xs.length ∧ xs.length ≤ 3200 ∧
      (∀ e ∈ xs, e.query = .getPeers ∧ e.peer.identity ≠ n.table.identity) ∧ (asked xs).Nodup ∧
      (∀ id ∈ asked xs, id ∈ ids n.table.neighbours ∨ ∃ e ∈ xs, e.names id) ∧
      (xs.length < 3200 → ids n.table.neighbours ⊆ asked xs ∧
        ∀ e ∈ xs, ∀ id, e.names id → id ≠ n.table.identity → id ∈ asked xs) := by
  intro xs
  obtain ⟨k, hrun, h⟩ := run_ensures hn σ o w
  obtain rfl : k = xs.length := by simpa using h.total_eq
  have hself : n.table.identity ∉ asked xs := fun hid => h.unmet _ hid List.mem_cons_self
  refine ⟨hrun, h.total_le (Nat.zero_le _), fun e he => ⟨h.query_eq e he, fun hid => ?_⟩, h.nodup,
    h.heard, fun hlt => ⟨fun id hid => ?_, fun e he id hnames hne => ?_⟩⟩
  · exact hself (hid ▸ List.mem_map.mpr ⟨e, he, rfl⟩)
  · refine (h.closed hlt id (.inl hid)).resolve_left fun hmet => ?_
    obtain ⟨c, hc, rfl⟩ := List.mem_map.mp hid
    obtain ⟨i, hc⟩ := RoutingTable.active_of_mem_neighbours hc
    have hhome := (ht.sound i).home c (List.mem_append_left _ hc)
    exact hhome.ne_self (List.mem_singleton.mp hmet)
  · refine (h.closed hlt id (.inr ⟨hne, e, he, hnames⟩)).resolve_left fun hmet => ?_
    exact hne (List.mem_singleton.mp hmet)

/-- A node that knows `a` and `b`. -/
def nodeWithTwo : LocalNode :=
  ⟨(RoutingTable.new ⟨.zero, "s", 1, 0⟩).run
    [.push 5 ⟨⟨0, 0, 0, 0, 1⟩, "a", 3, 0⟩, .push 5 ⟨⟨0, 0, 0, 0, 2⟩, "b", 3, 0⟩],
    .empty, false, .empty, false, none, false⟩

/-- `a` names the asking node, `b` and `c`; `c` names `a`; nobody else can be reached. -/
def hearsay : Outside Unit where
  answer _ peer q :=
    match q with
    | .getPeers =>
      if peer.address = "a" then
        (.ok [⟨.zero, "s", 1, 0⟩, ⟨⟨0, 0, 0, 0, 2⟩, "b", 1, 0⟩, ⟨⟨0, 0, 0, 0, 3⟩, "c", 1, 0⟩], ())
      else if peer.address = "c" then (.ok [⟨⟨0, 0, 0, 0, 1⟩, "a", 3, 0⟩], ())
      else (.error (.unreachable peer.address), ())
    | _ => (.error (.unreachable peer.address), ())
  look _ := ((7 : Time), ())

/-- `c` is asked because `a` names it. -/
theorem lookup_closed_of_two :
    nodeWithTwo.table.Reachable ∧ (run.run hearsay nodeWithTwo ()).1 = some 3 ∧
      asked (run.exchanges hearsay nodeWithTwo ()) =
        [⟨0, 0, 0, 0, 1⟩, ⟨0, 0, 0, 0, 2⟩, ⟨0, 0, 0, 0, 3⟩] := by
  have ht : nodeWithTwo.table.Reachable := by
    simp only [nodeWithTwo]
    exact ⟨_, _, .new _, rfl⟩
  have hstart : nodeWithTwo.table.identity = .zero ∧ nodeWithTwo.table.neighbours =
      [⟨⟨0, 0, 0, 0, 1⟩, "a", 3, 0⟩, ⟨⟨0, 0, 0, 0, 2⟩, "b", 3, 0⟩] := by decide +kernel
  have hwalk : run.exchanges hearsay nodeWithTwo () =
      (walk nodeWithTwo.table.identity [nodeWithTwo.table.identity] 0
        nodeWithTwo.table.neighbours).exchanges hearsay nodeWithTwo () :=
    (Activity.exchanges_bind hearsay _ (fun k => .done (some k)) nodeWithTwo ()).trans
      (List.append_nil _)
  rw [hstart.1, hstart.2] at hwalk
  have hasked : asked (run.exchanges hearsay nodeWithTwo ()) =
      [⟨0, 0, 0, 0, 1⟩, ⟨0, 0, 0, 0, 2⟩, ⟨0, 0, 0, 0, 3⟩] := by
    rw [hwalk]
    simp [walk, Activity.exchanges, hearsay, reported, Contact.restamp, Contact.fresh, limit,
      Bucket.capacity, Identity.zero]
  refine ⟨ht, ?_, hasked⟩
  rw [(lookup_closed hearsay nodeWithTwo () rfl ht).1, ← length_asked, hasked]
  rfl

end Lookup

end SearchOverlay
