import SearchOverlay.Proofs.Bucket.Steps

/-!
# What a bucket holds

`Sound` is what every bucket keeps: its lists are no longer than its capacity and the
replacements are sorted by when they were seen. No operation brings in anybody but the contact
that is offered. How often an identity is held is counted: an offer that does not clash leaves
the offered identity there once, a removal adds no entry, and an eviction takes away exactly
one of the entries with the identity.
-/

namespace SearchOverlay.Bucket

/-- The order of the replacements. -/
abbrev SortedBySeen (cs : List Contact) : Prop := cs.Pairwise fun c d => d.lastSeen ≤ c.lastSeen

structure Sound (b : Bucket) : Prop where
  active_le : b.active.length ≤ capacity
  replacements_le : b.replacements.length ≤ capacity
  sorted : SortedBySeen b.replacements

theorem seenNoEarlier_trans (c d e : Contact) (hcd : seenNoEarlier c d) (hde : seenNoEarlier d e) :
    seenNoEarlier c e := by
  simp only [seenNoEarlier, decide_eq_true_eq, UInt64.le_iff_toNat_le] at *
  omega

theorem seenNoEarlier_total (c d : Contact) : seenNoEarlier c d || seenNoEarlier d c := by
  simp only [seenNoEarlier, Bool.or_eq_true, decide_eq_true_eq, UInt64.le_iff_toNat_le]
  omega

theorem sortBySeen_eq_mergeSort (cs : List Contact) : sortBySeen cs = cs.mergeSort seenNoEarlier :=
  sortBy_eq_mergeSort seenNoEarlier_trans seenNoEarlier_total cs

theorem sortBySeen_perm (cs : List Contact) : (sortBySeen cs).Perm cs := sortBy_perm _ cs

@[simp] theorem length_sortBySeen (cs : List Contact) : (sortBySeen cs).length = cs.length :=
  (sortBySeen_perm cs).length_eq

theorem sortedBySeen_sortBySeen (cs : List Contact) : SortedBySeen (sortBySeen cs) := by
  rw [sortBySeen_eq_mergeSort]
  have h := List.pairwise_mergeSort seenNoEarlier_trans seenNoEarlier_total cs
  exact h.imp fun hcd => of_decide_eq_true hcd

theorem sortBySeen_of_sorted {cs : List Contact} (h : SortedBySeen cs) : sortBySeen cs = cs := by
  rw [sortBySeen_eq_mergeSort]
  exact List.mergeSort_of_pairwise (h.imp fun hcd => decide_eq_true hcd)

@[simp] theorem mem_sortBySeen {c : Contact} {cs : List Contact} : c ∈ sortBySeen cs ↔ c ∈ cs :=
  (sortBySeen_perm cs).mem_iff

theorem sound_empty (h : UInt8) : (empty h).Sound :=
  ⟨Nat.zero_le _, Nat.zero_le _, List.Pairwise.nil⟩

/-! ## Capacity and order -/

theorem DeferStep.length_le {now : Time} {c : Contact} {cs cs' : List Contact}
    (s : DeferStep now c cs cs') (h : cs.length ≤ capacity) : cs'.length ≤ capacity := by
  cases s with
  | renewed named first => simpa using h
  | added new room => simp; omega
  | dropped new full split before after =>
    have := congrArg List.length split
    simp at this ⊢
    omega

theorem DeferStep.sorted {now : Time} {c : Contact} {cs cs' : List Contact}
    (s : DeferStep now c cs cs') : SortedBySeen cs' := by
  cases s <;> exact sortedBySeen_sortBySeen _

/-- Where there is room, a newcomer joins those who wait. -/
theorem DeferStep.eq_of_room {now : Time} {c : Contact} {cs cs' : List Contact}
    (s : DeferStep now c cs cs') (hnew : c.identity ∉ ids cs) (hroom : cs.length < capacity) :
    cs' = sortBySeen (cs ++ [c]) := by
  cases s with
  | renewed named first => exact absurd (by simp [← named]) hnew
  | added new room => rfl
  | dropped new full split before after => exact absurd full (Nat.not_le_of_lt hroom)

theorem PushStep.height {now : Time} {c : Contact} {b b' : Bucket} {o : PushOutcome}
    (s : PushStep now c b o b') : b'.height.toNat = b.height.toNat := by
  cases s <;> rfl

theorem RemoveStep.height {id : Identity} {b b' : Bucket} {was : Bool}
    (s : RemoveStep id b was b') : b'.height.toNat = b.height.toNat := by
  cases s <;> rfl

theorem EvictStep.height {id : Identity} {b b' : Bucket} {was : Bool}
    (s : EvictStep id b was b') : b'.height.toNat = b.height.toNat := by
  cases s <;> rfl

theorem PushStep.sound {now : Time} {c : Contact} {b b' : Bucket} {o : PushOutcome}
    (s : PushStep now c b o b') (hb : b.Sound) : b'.Sound := by
  obtain ⟨ha, hr, hs⟩ := hb
  cases s with
  | refreshed named first => exact ⟨by simp at ha ⊢; omega, hr, hs⟩
  | inserted new room =>
    refine ⟨by simp; omega, Nat.le_trans (List.length_filter_le _ _) hr, ?_⟩
    exact hs.sublist List.filter_sublist
  | replaced new full stale before after => exact ⟨by simpa using ha, hr, hs⟩
  | deferred new full fine wait => exact ⟨ha, wait.length_le hr, wait.sorted⟩

theorem RemoveStep.sound {id : Identity} {b b' : Bucket} {was : Bool}
    (s : RemoveStep id b was b') (hb : b.Sound) : b'.Sound := by
  obtain ⟨ha, hr, hs⟩ := hb
  cases s with
  | absent none => exact ⟨ha, hr, hs⟩
  | marked named first => exact ⟨by simpa using ha, hr, hs⟩
  | promoted named first =>
    refine ⟨by simpa using ha, ?_, sortedBySeen_sortBySeen _⟩
    simp only [List.length_cons] at hr
    simp only [length_sortBySeen]
    omega

theorem EvictStep.sound {id : Identity} {b b' : Bucket} {was : Bool}
    (s : EvictStep id b was b') (hb : b.Sound) : b'.Sound := by
  obtain ⟨ha, hr, hs⟩ := hb
  cases s with
  | absent none noWait => exact ⟨ha, hr, hs⟩
  | dropped named first => exact ⟨by simp at ha ⊢; omega, hr, hs⟩
  | promoted named first =>
    exact ⟨by simpa using ha, by simp at hr ⊢; omega, (List.pairwise_cons.mp hs).2⟩
  | waiting none named first =>
    exact ⟨ha, by simp at hr ⊢; omega, hs.sublist (by simp)⟩

/-! ## Who is held -/

theorem DeferStep.mem {now : Time} {c d : Contact} {cs cs' : List Contact}
    (s : DeferStep now c cs cs') (hd : d ∈ cs') :
    d ∈ cs ∨ d.identity = c.identity ∧ d.address = c.address := by
  cases s with
  | renewed named first =>
    simp only [mem_sortBySeen, List.mem_append, List.mem_cons] at hd ⊢
    rcases hd with hd | rfl | hd
    · exact .inl (.inl hd)
    · exact .inr ⟨named, rfl⟩
    · exact .inl (.inr (.inr hd))
  | added new room =>
    simp only [mem_sortBySeen, List.mem_append, List.mem_singleton] at hd
    rcases hd with hd | rfl
    · exact .inl hd
    · exact .inr ⟨rfl, rfl⟩
  | dropped new full split before after =>
    have hd : d ∈ cs ++ [c] := by
      rw [split]
      simp only [mem_sortBySeen, List.mem_append] at hd
      simp only [List.mem_append, List.mem_cons]
      exact hd.imp_right .inr
    rcases List.mem_append.mp hd with hd | hd
    · exact .inl hd
    · obtain rfl := List.mem_singleton.mp hd
      exact .inr ⟨rfl, rfl⟩

/-- An offer brings in nobody but `c`. -/
theorem PushStep.mem_held {now : Time} {c d : Contact} {b b' : Bucket} {o : PushOutcome}
    (s : PushStep now c b o b') (hd : d ∈ b'.held) :
    d ∈ b.held ∨ d.identity = c.identity ∧ d.address = c.address := by
  cases s with
  | refreshed named first =>
    simp only [held, List.mem_append, List.mem_cons] at hd ⊢
    rcases hd with (rfl | hd | hd) | hd
    · exact .inr ⟨named, rfl⟩
    all_goals exact .inl (by simp [hd])
  | inserted new room =>
    simp only [held, List.mem_append, List.mem_singleton, List.mem_filter] at hd ⊢
    rcases hd with (hd | rfl) | hd
    · exact .inl (.inl hd)
    · exact .inr ⟨rfl, rfl⟩
    · exact .inl (.inr hd.1)
  | replaced new full stale before after =>
    simp only [held, List.mem_append, List.mem_cons] at hd ⊢
    rcases hd with (hd | rfl | hd) | hd
    · exact .inl (by simp [hd])
    · exact .inr ⟨rfl, rfl⟩
    all_goals exact .inl (by simp [hd])
  | deferred new full fine wait =>
    simp only [held, List.mem_append] at hd ⊢
    rcases hd with hd | hd
    · exact .inl (.inl hd)
    · exact (wait.mem hd).imp_left .inr

theorem RemoveStep.mem_held {id : Identity} {d : Contact} {b b' : Bucket} {was : Bool}
    (s : RemoveStep id b was b') (hd : d ∈ b'.held) :
    ∃ e ∈ b.held, d.identity = e.identity ∧ d.address = e.address := by
  cases s with
  | absent none => exact ⟨d, hd, rfl, rfl⟩
  | @marked _ l old r named first =>
    simp only [held, List.mem_append, List.mem_cons] at hd ⊢
    rcases hd with (hd | rfl | hd) | hd
    · exact ⟨d, by simp [hd], rfl, rfl⟩
    · exact ⟨old, by simp, rfl, rfl⟩
    all_goals exact ⟨d, by simp [hd], rfl, rfl⟩
  | promoted named first =>
    simp only [held, List.mem_append, List.mem_cons, mem_sortBySeen] at hd ⊢
    rcases hd with (hd | rfl | hd) | hd
    all_goals exact ⟨d, by simp [*], rfl, rfl⟩

/-- The first replacement moves into the active list. -/
theorem promote_perm (l r rs : List Contact) (next : Contact) :
    (l ++ next :: r ++ rs).Perm (l ++ r ++ next :: rs) := by
  refine (List.perm_middle.append_right rs).trans ?_
  exact List.perm_middle.symm

theorem promote_sorted_perm (l r rs : List Contact) (next : Contact) :
    (l ++ next :: r ++ sortBySeen rs).Perm (l ++ r ++ next :: rs) :=
  ((sortBySeen_perm rs).append_left _).trans (promote_perm l r rs next)

/-- An eviction that finds somebody takes one entry away and moves the others. -/
theorem EvictStep.perm {id : Identity} {b b' : Bucket} (s : EvictStep id b true b') :
    ∃ old, old.identity = id ∧ b.held.Perm (old :: b'.held) := by
  cases s with
  | @dropped _ l old r named first => exact ⟨old, named, by simp [held]⟩
  | @promoted _ l old r next rs named first =>
    refine ⟨old, named, (List.perm_middle.append_right _).trans ?_⟩
    exact (promote_perm l r rs next).symm.cons old
  | @waiting _ as l old r none named first =>
    refine ⟨old, named, ?_⟩
    simp only [held, ← List.append_assoc]
    exact List.perm_middle

theorem EvictStep.absent_of_false {id : Identity} {b b' : Bucket} (s : EvictStep id b false b') :
    b' = b ∧ id ∉ ids b.held := by
  cases s with
  | absent none noWait =>
    refine ⟨rfl, ?_⟩
    simp only [held, List.map_append, List.mem_append, not_or]
    exact ⟨none, noWait⟩

theorem EvictStep.mem_held {id : Identity} {d : Contact} {b b' : Bucket} {was : Bool}
    (s : EvictStep id b was b') (hd : d ∈ b'.held) : d ∈ b.held := by
  cases was with
  | false => exact s.absent_of_false.1 ▸ hd
  | true =>
    obtain ⟨old, -, hp⟩ := s.perm
    exact hp.mem_iff.mpr (List.mem_cons_of_mem _ hd)

/-- A removal says whether the identity was active. -/
theorem RemoveStep.fst_iff {id : Identity} {b b' : Bucket} {was : Bool}
    (s : RemoveStep id b was b') : was = true ↔ id ∈ ids b.active := by
  cases s with
  | absent none => exact iff_of_false (by simp) none
  | marked named first => exact iff_of_true rfl (by simp [← named])
  | promoted named first => exact iff_of_true rfl (by simp [← named])

/-! ## How often an identity is held -/

/-- No identity is held twice. -/
def HeldOnce (b : Bucket) : Prop := (ids b.held).Nodup

instance (b : Bucket) : Decidable b.HeldOnce := inferInstanceAs (Decidable (ids b.held).Nodup)

theorem not_mem_ids_of_nodup {c : Contact} {cs : List Contact} (h : (ids (cs ++ [c])).Nodup) :
    c.identity ∉ ids cs := by
  rw [ids, List.map_append, List.nodup_append] at h
  exact fun hmem => h.2.2 _ hmem _ (by simp) rfl

/-- A contact with this identity would take the place of a stale one and go on waiting. -/
def Clashes (id : Identity) (b : Bucket) : Prop :=
  id ∉ ids b.active ∧ id ∈ ids b.replacements ∧ capacity ≤ b.active.length ∧
    ∃ d ∈ b.active, staleThreshold ≤ d.staleCount.toNat

theorem DeferStep.count_le {now : Time} {c : Contact} {cs cs' : List Contact}
    (s : DeferStep now c cs cs') (id : Identity) :
    (ids cs').count id ≤ max ((ids cs).count id) (if c.identity = id then 1 else 0) := by
  have sorted : ∀ es, (ids (sortBySeen es)).count id = (ids es).count id := fun es =>
    ((sortBySeen_perm es).map _).count_eq id
  -- an identity that is new is there once after it was put at the end
  have appended : c.identity ∉ ids cs →
      (ids (cs ++ [c])).count id ≤ max ((ids cs).count id) (if c.identity = id then 1 else 0) := by
    intro new
    simp only [ids, List.map_append, List.count_append, List.map_singleton, List.count_singleton,
      beq_iff_eq]
    split
    · next h =>
      have h0 := List.count_eq_zero.mpr new
      rw [h] at h0
      simp only [ids] at h0
      omega
    · omega
  cases s with
  | renewed named first =>
    rw [sorted]
    simp only [ids, List.map_append, List.map_cons, renew_identity]
    omega
  | added new room =>
    rw [sorted]
    exact appended new
  | @dropped _ l old r new full split before after =>
    rw [sorted]
    refine Nat.le_trans ?_ (appended new)
    rw [split]
    exact List.Sublist.count_le id (List.Sublist.map _ (by simp))

/-- An offer leaves the offered identity there once, unless it clashes, and adds no other. -/
theorem PushStep.count_le {now : Time} {c : Contact} {b b' : Bucket} {o : PushOutcome}
    (s : PushStep now c b o b') (id : Identity) (hclash : c.identity = id → ¬ b.Clashes id) :
    (ids b'.held).count id ≤ max ((ids b.held).count id) (if c.identity = id then 1 else 0) := by
  cases s with
  | @refreshed _ l old r rs named first =>
    have hp : (renew now c old :: (l ++ r) ++ rs).Perm (l ++ renew now c old :: r ++ rs) :=
      (List.perm_middle.symm).append_right rs
    rw [held, (hp.map _).count_eq]
    simp only [held, ids, List.map_append, List.map_cons, renew_identity]
    omega
  | @inserted _ as rs new room =>
    have hrs : (ids (rs.filter (! hasId c.identity ·))).count id ≤ (ids rs).count id :=
      (List.filter_sublist.map _).count_le id
    simp only [held, ids, List.map_append, List.count_append, List.map_singleton,
      List.count_singleton, beq_iff_eq] at hrs ⊢
    split
    · next h =>
      subst h
      have has := List.count_eq_zero.mpr new
      have hfilter := List.count_eq_zero.mpr (not_mem_ids_filter c.identity rs)
      simp only [ids] at has hfilter
      omega
    · omega
  | @replaced _ l old r rs new full stale before after =>
    by_cases h : c.identity = id
    · have hrs : (ids rs).count id = 0 := by
        refine List.count_eq_zero.mpr fun hwait => hclash h ?_
        exact ⟨h ▸ new, hwait, full, old, by simp, stale⟩
      have has := List.count_eq_zero.mpr new
      subst h
      simp only [held, ids, List.map_append, List.count_append, List.map_cons,
        List.count_cons] at has hrs ⊢
      simp only [beq_self_eq_true, if_true]
      omega
    · simp only [held, ids, List.map_append, List.count_append, List.map_cons, List.count_cons,
        beq_iff_eq, h, if_false]
      omega
  | @deferred _ as rs rs' new full fine wait =>
    have hwait := wait.count_le id
    simp only [held, ids, List.map_append, List.count_append] at hwait ⊢
    by_cases h : c.identity = id
    · have has := List.count_eq_zero.mpr new
      rw [h] at has
      rw [if_pos h] at hwait ⊢
      simp only [ids] at has
      omega
    · rw [if_neg h] at hwait ⊢
      omega

/-- A clash leaves the identity there twice. -/
theorem PushStep.two_le_count {now : Time} {c : Contact} {b b' : Bucket} {o : PushOutcome}
    (s : PushStep now c b o b') (h : b.Clashes c.identity) :
    2 ≤ (ids b'.held).count c.identity := by
  obtain ⟨hnew, hwait, hfull, d, hd, hstale⟩ := h
  cases s with
  | refreshed named first => simp [← named] at hnew
  | inserted new room => exact absurd hfull (Nat.not_le_of_lt room)
  | replaced new full stale before after =>
    have hpos := List.count_pos_iff.mpr hwait
    simp only [held, ids, List.map_append, List.count_append, List.map_cons,
      List.count_cons_self] at hpos ⊢
    omega
  | deferred new full fine wait => exact absurd hstale (Nat.not_le_of_lt (fine d hd))

theorem RemoveStep.count_le {id : Identity} {b b' : Bucket} {was : Bool}
    (s : RemoveStep id b was b') (other : Identity) :
    (ids b'.held).count other ≤ (ids b.held).count other := by
  cases s with
  | absent none => exact Nat.le_refl _
  | marked named first => simp [held]
  | @promoted _ l old r next rs named first =>
    rw [held, ((promote_sorted_perm l r rs next).map _).count_eq]
    exact List.Sublist.count_le other (List.Sublist.map _ (List.Sublist.append_right (by simp) _))

/-- An eviction says whether the identity was held. -/
theorem EvictStep.fst_iff {id : Identity} {b b' : Bucket} {was : Bool}
    (s : EvictStep id b was b') : was = true ↔ id ∈ ids b.held := by
  cases was with
  | false => exact iff_of_false (by simp) s.absent_of_false.2
  | true =>
    obtain ⟨old, rfl, hp⟩ := s.perm
    exact iff_of_true rfl (List.mem_map.mpr ⟨old, hp.mem_iff.mpr List.mem_cons_self, rfl⟩)

/-- Of the entries with the evicted identity one goes, of the others none. -/
theorem EvictStep.count {id : Identity} {b b' : Bucket} {was : Bool} (s : EvictStep id b was b')
    (other : Identity) :
    (ids b'.held).count other = (ids b.held).count other - if other = id then 1 else 0 := by
  cases was with
  | false =>
    obtain ⟨rfl, habsent⟩ := s.absent_of_false
    split
    · next h => rw [h, List.count_eq_zero.mpr habsent]
    · rfl
  | true =>
    obtain ⟨old, hold, hp⟩ := s.perm
    rw [(hp.map _).count_eq, List.map_cons, List.count_cons, hold]
    simp only [ids, beq_iff_eq, eq_comm (a := other)]
    omega

end SearchOverlay.Bucket
