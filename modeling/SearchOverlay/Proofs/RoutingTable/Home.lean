import SearchOverlay.Proofs.RoutingTable.Reachable

/-!
# The home bucket decides

A table looks for an identity in one bucket only. Since nobody is held outside the home of his
identity, nor the table's own identity anywhere, the answers are those of a search through all
buckets, and no other bucket changes.
-/

namespace SearchOverlay.RoutingTable

variable {t : RoutingTable} {id : Identity} {i : Fin 160}

theorem Sound.self_not_active (ht : t.Sound) : t.identity ∉ ids (t.bucket i).active := by
  intro h
  exact ht.self_not_in_bucket i (List.map_subset _ (List.subset_append_left ..) h)

/-- Whoever is active somewhere is active at home. -/
theorem Sound.active_iff_home (ht : t.Sound) :
    (∃ i, id ∈ ids (t.bucket i).active) ↔ id ∈ ids (t.home id).active := by
  constructor
  · rintro ⟨i, h⟩
    obtain ⟨c, hc, rfl⟩ := List.mem_map.mp h
    rwa [home, ht.index_eq_of_active hc]
  · exact fun h => ⟨_, h⟩

theorem Sound.contains_iff (ht : t.Sound) :
    t.contains id = true ↔ ∃ i, id ∈ ids (t.bucket i).active := by
  rw [ht.active_iff_home, ← Bucket.any_hasId, contains, Bool.and_eq_true, and_iff_right_iff_imp]
  intro hactive
  refine decide_eq_true fun hself => ?_
  rw [hself] at hactive
  exact ht.self_not_active (Bucket.any_hasId.mp hactive)

theorem Sound.remove_fst_iff (ht : t.Sound) :
    (t.remove id).1 = true ↔ ∃ i, id ∈ ids (t.bucket i).active := by
  rw [ht.active_iff_home]
  by_cases hself : id = t.identity
  · subst hself
    rw [remove_self]
    exact iff_of_false (by simp) ht.self_not_active
  · rw [remove_of_ne hself]
    exact (Bucket.remove_step id (t.home id)).fst_iff

theorem Sound.evict_fst_iff (ht : t.Sound) : (t.evict id).1 = true ↔
    ∃ i, id ∈ ids (t.bucket i).active ∨ id ∈ ids (t.bucket i).replacements := by
  rw [ht.evict_fst]
  constructor
  · intro h
    obtain ⟨c, hc, rfl⟩ := List.mem_map.mp h
    obtain ⟨i, hc⟩ := RoutingTable.mem_held_iff.mp hc
    exact ⟨i, (List.mem_append.mp hc).imp List.mem_map_of_mem List.mem_map_of_mem⟩
  · rintro ⟨i, h⟩
    rw [← List.mem_append, ← List.map_append] at h
    obtain ⟨c, hc, rfl⟩ := List.mem_map.mp h
    exact List.mem_map_of_mem (RoutingTable.mem_held_iff.mpr ⟨i, hc⟩)

theorem Sound.home_remove (ht : t.Sound) (id : Identity) :
    (t.remove id).2.home id = ((t.home id).remove id).2 := by
  by_cases hself : id = t.identity
  · subst hself
    rw [remove_self, home, Bucket.remove_of_not_mem ht.self_not_active]
  · rw [home_eq (self_remove id t), bucket_remove hself rfl]
    rfl

theorem Sound.home_evict (ht : t.Sound) (id : Identity) :
    (t.evict id).2.home id = ((t.home id).evict id).2 := by
  by_cases hself : id = t.identity
  · subst hself
    rw [evict_self, home, Bucket.evict_of_not_mem (ht.self_not_in_bucket _)]
  · rw [home_eq (self_evict id t), bucket_evict hself rfl]
    rfl

theorem home_push_of_takes {now : Time} {c : Contact} (h : t.Takes c) :
    (t.push now c).2.home c.identity = ((t.home c.identity).push now c).2 := by
  rw [push_of_takes now h, home_setHome_of_eq _ rfl]

/-- The operations that look into the home bucket answer as a search through the whole table
would. They do with it what the bucket's own operations do, and no other bucket changes. -/
theorem home_decides (ht : t.Reachable) (id : Identity) :
    (t.contains id = true ↔ ∃ i, id ∈ ids (t.bucket i).active) ∧
    ((t.remove id).1 = true ↔ ∃ i, id ∈ ids (t.bucket i).active) ∧
    ((t.evict id).1 = true ↔
      ∃ i, id ∈ ids (t.bucket i).active ∨ id ∈ ids (t.bucket i).replacements) ∧
    ((t.remove id).2.home id = ((t.home id).remove id).2 ∧
      (t.evict id).2.home id = ((t.home id).evict id).2 ∧
      ∀ now c, c.identity = id →
        (t.Takes c → (t.push now c).2.home id = ((t.home id).push now c).2) ∧
        (¬ t.Takes c → (t.push now c).2 = t)) ∧
    ∀ i, i ≠ t.index id →
      (t.remove id).2.bucket i = t.bucket i ∧ (t.evict id).2.bucket i = t.bucket i ∧
      ∀ now c, c.identity = id → (t.push now c).2.bucket i = t.bucket i := by
  have hsound := ht.sound
  refine ⟨hsound.contains_iff, hsound.remove_fst_iff, hsound.evict_fst_iff,
    ⟨hsound.home_remove id, hsound.home_evict id, ?_⟩, fun i hi => ⟨?_, ?_, ?_⟩⟩
  · rintro now c rfl
    refine ⟨home_push_of_takes, fun h => ?_⟩
    rw [push_of_not_takes now h]
  · exact bucket_remove_of_ne hi.symm
  · exact bucket_evict_of_ne hi.symm
  · rintro now c rfl
    exact bucket_push_of_ne hi.symm

/-- For a table that has moved: the one contact has come from the bucket 159 to the bucket 0, the
other one the other way. -/
theorem home_decides_of_moved :
    let near : Identity := ⟨0, 0, 0, 0, 1⟩
    let far : Identity := ⟨0x80000000, 0, 0, 0, 1⟩
    let t := (new ⟨.zero, "s", 1, 0⟩).run
      [.push 5 ⟨far, "f", 3, 0⟩, .push 6 ⟨near, "n", 3, 0⟩,
        .setSelf (.still 7) ⟨⟨0x80000000, 0, 0, 0, 0⟩, "s", 7, 0⟩]
    near ∈ ids (t.bucket 159).active ∧ t.contains near = true ∧ (t.evict near).1 = true ∧
      ((t.remove near).2.home near).active = [⟨near, "n", 3, 1⟩] ∧
      ((t.evict near).2.home near).active = [] ∧
      ((t.push 8 ⟨near, "n2", 8, 0⟩).2.home near).active = [⟨near, "n2", 8, 0⟩] ∧
      (0 : Fin 160) ≠ t.index near ∧ far ∈ ids ((t.evict near).2.bucket 0).active ∧
      far ∈ ids ((t.push 8 ⟨near, "n2", 8, 0⟩).2.bucket 0).active := by
  intro near far t
  have hnear : near ∈ ids (t.bucket 159).active := by decide +kernel
  have hfar : far ∈ ids (t.bucket 0).active := by decide +kernel
  have hne : (0 : Fin 160) ≠ t.index near := by decide +kernel
  obtain ⟨hcontains, -, hevict, ⟨hremoved, hevicted, hpushed⟩, hothers⟩ :=
    home_decides (t := t) ⟨_, _, .new _, rfl⟩ near
  obtain ⟨-, hafter, hpush⟩ := hothers 0 hne
  refine ⟨hnear, hcontains.mpr ⟨159, hnear⟩, hevict.mpr ⟨159, .inl hnear⟩, ?_, ?_, ?_, hne, ?_, ?_⟩
  · rw [hremoved]
    decide +kernel
  · rw [hevicted]
    decide +kernel
  · rw [(hpushed 8 _ rfl).1 (by decide +kernel)]
    decide +kernel
  · rw [hafter]
    exact hfar
  · rw [hpush 8 _ rfl]
    exact hfar

end SearchOverlay.RoutingTable
