import SearchOverlay.Proofs.Store.Operations

/-!
# What a pull offers

`newer since` is what a store holds above a watermark, all of it, in the order of pulls: by time,
and by hash at one time. A pull takes the front of it. No two of its records have one hash, so
the order determines it, and raising the watermark only filters it.
-/

namespace SearchOverlay.Store

/-! ## The order of pulls -/

/-- By time, then by hash. -/
def pullOrder : Time × ContentHash → Time × ContentHash → Ordering :=
  compareLex (compareOn Prod.fst) (compareOn Prod.snd)

instance : Std.TransCmp pullOrder :=
  inferInstanceAs (Std.TransCmp (compareLex (compareOn Prod.fst) (compareOn Prod.snd)))

theorem notLater_trans {t u v : Time} {h i j : ContentHash} (htu : notLater t h u i)
    (huv : notLater u i v j) : notLater t h v j :=
  @Std.TransCmp.isLE_trans _ pullOrder _ (t, h) (u, i) (v, j) htu huv

theorem notLater_total (t u : Time) (h i : ContentHash) :
    notLater t h u i || notLater u i t h := by
  have hswap := @Std.OrientedCmp.eq_swap _ pullOrder _ (t, h) (u, i)
  show (pullOrder (t, h) (u, i)).isLE || (pullOrder (u, i) (t, h)).isLE
  rw [hswap]
  cases pullOrder (u, i) (t, h) <;> rfl

theorem notLater_iff {t u : Time} {h i : ContentHash} :
    notLater t h u i ↔ t < u ∨ t = u ∧ (compare h i).isLE := by
  rw [notLater, Ordering.isLE_then_iff_or, Std.compare_eq_iff_eq, Std.compare_eq_lt]

theorem hash_eq_of_notLater {t u : Time} {h i : ContentHash} (htu : notLater t h u i)
    (hut : notLater u i t h) : h = i := by
  have heq := @Std.OrientedCmp.isLE_antisymm _ pullOrder _ (t, h) (u, i) htu hut
  exact Std.compare_eq_iff_eq.mp (Ordering.then_eq_eq.mp heq).2

theorem le_of_notLater {t u : Time} {h i : ContentHash} (htu : notLater t h u i) : t ≤ u := by
  rcases notLater_iff.mp htu with hlt | ⟨rfl, -⟩
  · exact UInt64.le_of_lt hlt
  · exact UInt64.le_refl t

/-! ## All that is newer -/

namespace Shelf

variable {α : Type} {K : Shelf α} {s : Store} {since : Time} {a : α}

/-- The entries newer than `since`, the earliest first. -/
def newer (K : Shelf α) (since : Time) (s : Store) : List α :=
  ((K.all s).filter (since < K.time ·)).mergeSort
    fun a b => notLater (K.time a) (K.hash a) (K.time b) (K.hash b)

theorem newer_perm (K : Shelf α) (since : Time) (s : Store) :
    (K.newer since s).Perm ((K.all s).filter (since < K.time ·)) := List.mergeSort_perm ..

theorem Sound.mem_newer (hs : K.Sound s) :
    a ∈ K.newer since s ↔ K.held s (K.hash a) = some a ∧ since < K.time a := by
  rw [(newer_perm K since s).mem_iff, List.mem_filter, hs.mem_all, decide_eq_true_iff]

theorem Sound.nodup_newer (hs : K.Sound s) (since : Time) :
    ((K.newer since s).map K.hash).Nodup := by
  rw [((newer_perm K since s).map _).nodup_iff]
  exact hs.nodup_all.sublist (List.filter_sublist.map _)

/-- Nothing is newer than the watermark. -/
theorem Sound.newer_mark (hs : K.Sound s) : K.newer (K.mark s) s = [] := by
  rw [List.eq_nil_iff_forall_not_mem]
  intro a ha
  obtain ⟨hheld, hnewer⟩ := hs.mem_newer.mp ha
  exact UInt64.not_lt.mpr (hs.seen hheld) hnewer

end Shelf

/-- The records newer than `since`, the earliest first. -/
def newer (since : Time) (s : Store) : List Record :=
  (s.recordList.filter (since < ·.timestamp)).mergeSort
    fun r q => notLater r.timestamp r.hash q.timestamp q.hash

variable {s : Store} {since w : Time} {r : Record}

theorem recordsSince_eq (since : Time) (max : Nat) (s : Store) :
    s.recordsSince since max = (s.newer since).take max := rfl

theorem metadataSince_eq (since : Time) (max : Nat) (s : Store) :
    s.metadataSince since max = (Shelf.metadata.newer since s).take max := rfl

theorem newer_perm (since : Time) (s : Store) :
    (s.newer since).Perm (s.recordList.filter (since < ·.timestamp)) :=
  Shelf.records.newer_perm since s

theorem newer_sorted (since : Time) (s : Store) : (s.newer since).Pairwise
    fun r q => notLater r.timestamp r.hash q.timestamp q.hash := by
  apply List.pairwise_mergeSort
  · exact fun _ _ _ => notLater_trans
  · exact fun _ _ => notLater_total ..

theorem Sound.mem_newer (hs : s.Sound) :
    r ∈ s.newer since ↔ s.record? r.hash = some r ∧ since < r.timestamp :=
  (sound_iff.mp hs).mem_newer

theorem Sound.nodup_newer (hs : s.Sound) (since : Time) :
    ((s.newer since).map (·.hash)).Nodup :=
  (sound_iff.mp hs).nodup_newer since

/-- A new record is newer along with what was newer before. -/
theorem Sound.newer_insert_perm (hs : s.Sound) (hnew : s.record? r.hash = none)
    (h : since < r.timestamp) : ((s.insert r).newer since).Perm (r :: s.newer since) := by
  have hnodup {t : Store} (ht : t.Sound) : (t.newer since).Nodup :=
    List.Pairwise.of_map _ (fun _ _ hne heq => hne (congrArg Record.hash heq))
      (ht.nodup_newer since)
  have hfresh : r ∉ s.newer since := by
    rw [hs.mem_newer, hnew]
    exact fun hr => nomatch hr.1
  refine (List.perm_ext_iff_of_nodup (hnodup (hs.insert r))
    (List.nodup_cons.mpr ⟨hfresh, hnodup hs⟩)).mpr fun q => ?_
  rw [(hs.insert r).mem_newer, record?_insert, List.mem_cons, hs.mem_newer]
  split <;> grind

theorem newer_empty (since : Time) : empty.newer since = [] := by
  rw [List.eq_nil_iff_forall_not_mem]
  intro r hr
  cases (sound_empty.mem_newer.mp hr).1

theorem newer_singleton (h : since < r.timestamp) : (empty.insert r).newer since = [r] := by
  have hperm := sound_empty.newer_insert_perm (record?_empty r.hash) h
  rw [newer_empty] at hperm
  exact List.perm_singleton.mp hperm

/-- A higher watermark leaves out what it has seen. -/
theorem Sound.newer_of_le (hs : s.Sound) (h : since ≤ w) :
    s.newer w = (s.newer since).filter (w < ·.timestamp) := by
  refine List.Perm.eq_of_pairwise ?_ (newer_sorted w s) ((newer_sorted since s).filter _) ?_
  · intro r q hr hq hrq hqr
    have hr := (hs.mem_newer.mp hr).1
    have hq := (hs.mem_newer.mp (List.mem_filter.mp hq).1).1
    rw [hash_eq_of_notLater hrq hqr, hq] at hr
    exact (Option.some.inj hr).symm
  · refine (newer_perm w s).trans ?_
    refine .trans (.of_eq ?_) ((newer_perm since s).filter _).symm
    rw [List.filter_filter]
    apply List.filter_congr
    intro r _
    have himp : w < r.timestamp → since < r.timestamp := UInt64.lt_of_le_of_lt h
    by_cases hr : w < r.timestamp <;> simp [hr, himp]

end SearchOverlay.Store
