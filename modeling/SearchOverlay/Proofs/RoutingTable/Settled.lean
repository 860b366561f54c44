import SearchOverlay.Lookup
import SearchOverlay.Proofs.RoutingTable.HeldOnce

/-!
# Settled identities

What a cycle of gossip needs of a table: an identity that is `Settled` is held at most once and
waits only in a full bucket. Reports are taken up only while no bucket is full, so that nobody
settled waits when one begins, and whoever is left to wait in the course of it waits in a bucket
without stale contacts (`Calm`), for a reported contact counts as seen just now. Evictions and
reports keep an identity settled, and one eviction removes it.
-/

namespace SearchOverlay

namespace Bucket

/-- The identity is held at most once, and it waits only if the bucket is full. -/
structure Settled (id : Identity) (b : Bucket) : Prop where
  once : (ids b.held).count id ≤ 1
  full : id ∈ ids b.replacements → capacity ≤ b.active.length

/-- The identity is settled, and it waits only if no active contact is stale. -/
structure Calm (id : Identity) (b : Bucket) : Prop extends Settled id b where
  fine : id ∈ ids b.replacements → ∀ d ∈ b.active, d.staleCount.toNat < staleThreshold

theorem count_held (id : Identity) (b : Bucket) :
    (ids b.held).count id = (ids b.active).count id + (ids b.replacements).count id := by
  rw [held, ids, List.map_append, List.count_append]

theorem Settled.calm {id : Identity} {b : Bucket} (h : b.Settled id)
    (hroom : b.active.length < capacity) : b.Calm id :=
  { h with fine := fun hwait => absurd (h.full hwait) (Nat.not_le_of_lt hroom) }

theorem Calm.not_clashes {id : Identity} {b : Bucket} (h : b.Calm id) : ¬ b.Clashes id := by
  rintro ⟨-, hwait, -, d, hd, hstale⟩
  have := h.fine hwait d hd
  omega

/-- An active contact that is held once does not wait. -/
theorem settled_of_active {id : Identity} {b : Bucket} (hactive : id ∈ ids b.active)
    (honce : (ids b.held).count id ≤ 1) : b.Settled id := by
  refine ⟨honce, fun hwait => ?_⟩
  rw [count_held] at honce
  have ha := List.count_pos_iff.mpr hactive
  have hw := List.count_pos_iff.mpr hwait
  omega

theorem PushStep.calm {now : Time} {c : Contact} {b b' : Bucket} {o : PushOutcome} {id : Identity}
    (s : PushStep now c b o b') (hc : c.staleCount = 0) (h : b.Calm id) : b'.Calm id := by
  have hle := s.count_le id fun _ => h.not_clashes
  have hone := h.once
  have honce : (ids b'.held).count id ≤ 1 := by
    split at hle <;> omega
  have hfresh : c.staleCount.toNat < staleThreshold := by
    rw [hc]
    decide
  cases s with
  | @refreshed _ l old r rs named first =>
    refine ⟨⟨honce, fun hwait => ?_⟩, fun hwait d hd => ?_⟩
    · have hfull := h.full hwait
      simp only [List.length_append, List.length_cons] at hfull ⊢
      omega
    · rcases List.mem_cons.mp hd with rfl | hd
      · rw [renew_staleCount]
        decide
      · refine h.fine hwait d ?_
        simp only [List.mem_append, List.mem_cons] at hd ⊢
        exact hd.imp_right .inr
  | @inserted _ as rs new room =>
    have hrest : id ∈ ids (rs.filter (! hasId c.identity ·)) → id ∈ ids rs := fun hwait =>
      (List.filter_sublist.map _).mem hwait
    have hnone : id ∉ ids rs := fun hwait => absurd (h.full hwait) (Nat.not_le_of_lt room)
    exact ⟨⟨honce, fun hwait => absurd (hrest hwait) hnone⟩,
      fun hwait => absurd (hrest hwait) hnone⟩
  | @replaced _ l old r rs new full stale before after =>
    have hnone : id ∉ ids rs := fun hwait => by
      have := h.fine hwait old (by simp)
      omega
    exact ⟨⟨honce, fun hwait => absurd hwait hnone⟩, fun hwait => absurd hwait hnone⟩
  | deferred new full fine wait => exact ⟨⟨honce, fun _ => full⟩, fun _ => fine⟩

theorem EvictStep.settled {id other : Identity} {b b' : Bucket} {was : Bool}
    (s : EvictStep other b was b') (h : b.Settled id) : b'.Settled id := by
  have hle := s.count id
  have honce : (ids b'.held).count id ≤ 1 := by
    have := h.once
    omega
  cases s with
  | absent none noWait => exact h
  | dropped named first => exact ⟨honce, fun hwait => absurd hwait List.not_mem_nil⟩
  | @promoted _ l old r next rs named first =>
    refine ⟨honce, fun hwait => ?_⟩
    have hfull := h.full (List.mem_cons_of_mem _ hwait)
    simpa using hfull
  | @waiting _ as l old r none named first =>
    refine ⟨honce, fun hwait => h.full ?_⟩
    exact (List.Sublist.map _ (by simp)).mem hwait

end Bucket

namespace RoutingTable

def Settled (id : Identity) (t : RoutingTable) : Prop := (t.home id).Settled id

theorem Sound.calm_of_not_full {t : RoutingTable} (ht : t.Sound) {id : Identity}
    (h : t.Settled id) (hfull : t.isFull = false) : (t.home id).Calm id := by
  refine h.calm ?_
  have hle := (ht (t.index id)).lists.active_le
  have hne : (t.home id).isFull = false := by
    simp only [isFull, Vector.any_eq_false] at hfull
    simpa [home, bucket] using hfull (t.index id) (t.index id).isLt
  have hlen : (t.home id).active.length ≠ Bucket.capacity := by simpa [Bucket.isFull] using hne
  rw [home] at hlen ⊢
  omega

theorem calm_pushFrom {t : RoutingTable} {id : Identity} (h : (t.home id).Calm id) (clock : Clock)
    (i : Nat) {cs : List Contact} (hcs : ∀ c ∈ cs, c.staleCount = 0) :
    ((t.pushFrom clock i cs).home id).Calm id := by
  induction cs generalizing i t with
  | nil => exact h
  | cons c cs ih =>
    refine ih ?_ (i + 1) fun d hd => hcs d (List.mem_cons_of_mem _ hd)
    exact home_push h fun _ o b' s => s.calm (hcs c List.mem_cons_self) h

theorem Sound.settled_report {t : RoutingTable} (ht : t.Sound) {id : Identity} (h : t.Settled id)
    (hfull : t.isFull = false) (clock shown : Clock) (me : Identity) (cs : List Contact) :
    (t.pushAll clock (Lookup.reported shown me cs)).Settled id := by
  refine (calm_pushFrom (ht.calm_of_not_full h hfull) clock 0 fun c hc => ?_).toSettled
  obtain ⟨i, hi, rfl⟩ := List.mem_mapIdx.mp hc
  rfl

theorem Settled.evict {t : RoutingTable} {id : Identity} (h : t.Settled id) (other : Identity) :
    (t.evict other).2.Settled id :=
  home_evict h fun _ _ s => s.settled h

/-- One eviction removes whoever is settled. -/
theorem Sound.copies_evict_of_settled {t : RoutingTable} (ht : t.Sound) {id : Identity}
    (h : t.Settled id) : (t.evict id).2.copies id = 0 := by
  have hone := h.once
  rw [ht.copies_evict, if_pos rfl, ht.copies_eq]
  omega

/-- A report brings in nobody whom it does not name. -/
theorem Sound.copies_report_of_absent {t : RoutingTable} (ht : t.Sound) {id : Identity}
    (h : t.copies id = 0) (clock shown : Clock) (me : Identity) {cs : List Contact}
    (hcs : id ∉ ids cs) : (t.pushAll clock (Lookup.reported shown me cs)).copies id = 0 := by
  refine ht.copies_pushFrom_of_absent clock 0 h fun hmem => hcs ?_
  obtain ⟨c, hc, rfl⟩ := List.mem_map.mp hmem
  obtain ⟨i, hi, rfl⟩ := List.mem_mapIdx.mp hc
  exact List.mem_map.mpr ⟨_, (List.mem_filter.mp (List.getElem_mem _)).1, rfl⟩

/-! ## Neighbours -/

theorem active_of_mem_neighbours {t : RoutingTable} {c : Contact} (h : c ∈ t.neighbours) :
    ∃ i : Fin 160, c ∈ (t.bucket i).active := by
  have hc := (sortBy_perm _ _).mem_iff.mp (List.mem_of_mem_take h)
  rw [candidates, if_pos rfl] at hc
  exact mem_active_iff.mp hc

theorem Sound.settled_of_mem_neighbours {t : RoutingTable} (ht : t.Sound) (honce : t.HeldOnce)
    {c : Contact} (h : c ∈ t.neighbours) : t.Settled c.identity := by
  obtain ⟨i, hc⟩ := active_of_mem_neighbours h
  obtain rfl := ht.index_eq_of_active hc
  refine Bucket.settled_of_active (List.mem_map.mpr ⟨c, hc, rfl⟩) ?_
  have hcopies := heldOnce_iff_copies.mp honce c.identity
  rwa [ht.copies_eq] at hcopies

theorem not_mem_neighbours {t : RoutingTable} {id : Identity} (h : t.copies id = 0) :
    id ∉ ids t.neighbours := by
  intro hmem
  obtain ⟨c, hc, rfl⟩ := List.mem_map.mp hmem
  obtain ⟨i, hc⟩ := active_of_mem_neighbours hc
  refine copies_eq_zero.mp h (List.mem_map.mpr ⟨c, ?_, rfl⟩)
  exact mem_held_iff.mpr ⟨i, List.mem_append_left _ hc⟩

end RoutingTable

end SearchOverlay
