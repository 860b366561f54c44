import Mathlib.Data.List.Induction
import SearchOverlay.Proofs.RoutingTable.Operations

/-!
# Identities held once

A sound table holds an identity in its home bucket only, so what happens to the copies of an
identity is decided there. `Sound.heldOnce_apply_iff` names the one operation that makes a
table hold an identity twice: a waiting contact is offered again while its full bucket has a
stale contact, and takes that one's place without leaving the replacements.
`Sound.copies_evict` says that an eviction takes away one copy.
-/

namespace SearchOverlay

namespace RoutingTable

/-- No identity is held twice. -/
def HeldOnce (t : RoutingTable) : Prop := (ids t.held).Nodup

instance (t : RoutingTable) : Decidable t.HeldOnce := inferInstanceAs (Decidable (ids t.held).Nodup)

/-- How often an identity is held. -/
def copies (t : RoutingTable) (id : Identity) : Nat := (ids t.held).count id

theorem heldOnce_iff_copies {t : RoutingTable} : t.HeldOnce ↔ ∀ id, t.copies id ≤ 1 :=
  List.nodup_iff_count

theorem copies_eq_zero {t : RoutingTable} {id : Identity} :
    t.copies id = 0 ↔ id ∉ ids t.held :=
  List.count_eq_zero

theorem held_new (self : Contact) : (new self).held = [] := by
  simp [held, new, emptyBuckets, Bucket.held, Bucket.empty]

/-! ## The home bucket -/

theorem mem_flatMap_buckets {t : RoutingTable} {f : Bucket → List Contact} {c : Contact} :
    c ∈ t.buckets.toList.flatMap f ↔ ∃ i : Fin 160, c ∈ f (t.bucket i) := by
  simp only [List.mem_flatMap, mem_buckets_iff]
  constructor
  · rintro ⟨_, ⟨i, rfl⟩, hc⟩
    exact ⟨i, hc⟩
  · rintro ⟨i, hc⟩
    exact ⟨_, ⟨i, rfl⟩, hc⟩

theorem toList_buckets (t : RoutingTable) :
    t.buckets.toList = (List.finRange 160).map t.bucket := by
  apply List.ext_getElem
  · simp
  · intro k hk hk'
    simp [bucket]

theorem mem_held_iff {t : RoutingTable} {c : Contact} :
    c ∈ t.held ↔ ∃ i : Fin 160, c ∈ (t.bucket i).held := mem_flatMap_buckets

theorem mem_active_iff {t : RoutingTable} {c : Contact} :
    c ∈ t.active ↔ ∃ i : Fin 160, c ∈ (t.bucket i).active := mem_flatMap_buckets

theorem Sound.index_eq {t : RoutingTable} (ht : t.Sound) {i : Fin 160} {c : Contact}
    (hc : c ∈ (t.bucket i).held) : t.index c.identity = i :=
  Fin.ext ((ht i).home c hc).height

theorem Sound.index_eq_of_active {t : RoutingTable} (ht : t.Sound) {i : Fin 160} {c : Contact}
    (hc : c ∈ (t.bucket i).active) : t.index c.identity = i :=
  Fin.ext ((ht i).active hc).height

theorem Sound.mem_held_iff {t : RoutingTable} (ht : t.Sound) {c : Contact} :
    c ∈ t.held ↔ c ∈ (t.home c.identity).held := by
  rw [RoutingTable.mem_held_iff]
  constructor
  · rintro ⟨i, hc⟩
    obtain rfl := ht.index_eq hc
    exact hc
  · exact fun hc => ⟨_, hc⟩

theorem Sound.mem_ids_held_iff {t : RoutingTable} (ht : t.Sound) {id : Identity} :
    id ∈ ids t.held ↔ id ∈ ids (t.home id).held := by
  constructor
  · intro h
    obtain ⟨c, hc, rfl⟩ := List.mem_map.mp h
    exact List.mem_map.mpr ⟨c, ht.mem_held_iff.mp hc, rfl⟩
  · intro h
    obtain ⟨c, hc, hid⟩ := List.mem_map.mp h
    exact List.mem_map.mpr ⟨c, RoutingTable.mem_held_iff.mpr ⟨_, hc⟩, hid⟩

theorem Sound.self_not_in_bucket {t : RoutingTable} (ht : t.Sound) (i : Fin 160) :
    t.identity ∉ ids (t.bucket i).held := by
  intro h
  obtain ⟨c, hc, hid⟩ := List.mem_map.mp h
  exact ((ht i).home c hc).ne_self hid

theorem Sound.self_not_held {t : RoutingTable} (ht : t.Sound) : t.identity ∉ ids t.held := by
  intro h
  obtain ⟨c, hc, hid⟩ := List.mem_map.mp h
  obtain ⟨i, hc⟩ := RoutingTable.mem_held_iff.mp hc
  exact ht.self_not_in_bucket i (List.mem_map.mpr ⟨c, hc, hid⟩)

/-- All copies of an identity are in its home bucket. -/
theorem Sound.copies_eq {t : RoutingTable} (ht : t.Sound) (id : Identity) :
    t.copies id = (ids (t.home id).held).count id := by
  have hlt := (t.index id).isLt
  have hsplit : t.buckets.toList = t.buckets.toList.take (t.index id) ++
      t.home id :: t.buckets.toList.drop (t.index id + 1) := by
    have hk : (t.index id).val < t.buckets.toList.length := by simp
    have hget : t.buckets.toList[(t.index id).val] = t.home id := by simp [home, bucket]
    rw [← hget, List.getElem_cons_drop, List.take_append_drop]
  have absent : ∀ bs : List Bucket, (∀ b ∈ bs, ∃ i, b = t.bucket i ∧ i ≠ t.index id) →
      (ids (bs.flatMap Bucket.held)).count id = 0 := by
    intro bs hbs
    apply List.count_eq_zero.mpr
    intro h
    obtain ⟨c, hc, rfl⟩ := List.mem_map.mp h
    obtain ⟨b, hb, hc⟩ := List.mem_flatMap.mp hc
    obtain ⟨i, rfl, hi⟩ := hbs b hb
    exact hi (ht.index_eq hc).symm
  have front := absent (t.buckets.toList.take (t.index id)) fun b hb => by
    obtain ⟨j, hj, rfl⟩ := List.mem_take_iff_getElem.mp hb
    have hj : j < (t.index id).val := by simp at hj; omega
    exact ⟨⟨j, by omega⟩, by simp [bucket], Fin.ne_of_lt hj⟩
  have back := absent (t.buckets.toList.drop (t.index id + 1)) fun b hb => by
    obtain ⟨j, hj, rfl⟩ := List.mem_drop_iff_getElem.mp hb
    have hj : (t.index id).val + 1 + j < 160 := by simpa [Nat.add_comm] using hj
    refine ⟨⟨(t.index id).val + 1 + j, hj⟩, by simp [bucket], Fin.ne_of_gt ?_⟩
    exact Fin.lt_def.mpr (by simp; omega)
  rw [copies, held, hsplit, List.flatMap_append, List.flatMap_cons]
  simp only [ids, List.map_append, List.count_append] at front back ⊢
  omega

theorem Sound.heldOnce_of_buckets {t : RoutingTable} (ht : t.Sound)
    (h : ∀ i : Fin 160, (t.bucket i).HeldOnce) : t.HeldOnce := by
  apply heldOnce_iff_copies.mpr
  intro id
  rw [ht.copies_eq]
  exact List.nodup_iff_count.mp (h _) id

/-! ## Offers and removals -/

/-- An offer leaves the offered identity there once, unless it clashes, and adds no other. -/
theorem Sound.copies_push_le {t : RoutingTable} (ht : t.Sound) (now : Time) (c : Contact)
    (id : Identity) (hclash : t.Takes c → c.identity = id → ¬ (t.home id).Clashes id) :
    (t.push now c).2.copies id ≤ max (t.copies id) (if c.identity = id then 1 else 0) := by
  rw [(ht.push now c).copies_eq, ht.copies_eq]
  refine home_push (P := fun b => (ids b.held).count id ≤ _) (Nat.le_max_left _ _) ?_
  exact fun htake o b' s => s.count_le id (hclash htake)

theorem Sound.two_le_copies_push {t : RoutingTable} (ht : t.Sound) (now : Time) {c : Contact}
    (htake : t.Takes c) (hclash : (t.home c.identity).Clashes c.identity) :
    2 ≤ (t.push now c).2.copies c.identity := by
  rw [(ht.push now c).copies_eq, push_of_takes now htake, home_setHome_of_eq _ rfl]
  exact (Bucket.push_step now c _).two_le_count hclash

theorem Sound.heldOnce_push_iff {t : RoutingTable} (ht : t.Sound) (h : t.HeldOnce) (now : Time)
    (c : Contact) : (t.push now c).2.HeldOnce ↔
      ¬ (t.Takes c ∧ (t.home c.identity).Clashes c.identity) := by
  rw [heldOnce_iff_copies] at h ⊢
  constructor
  · rintro h' ⟨htake, hclash⟩
    have htwo := ht.two_le_copies_push now htake hclash
    have hone := h' c.identity
    omega
  · intro hnone id
    have hle := ht.copies_push_le now c id fun htake he hclash =>
      hnone ⟨htake, he ▸ hclash⟩
    have hid := h id
    split at hle <;> omega

theorem Sound.copies_push_of_absent {t : RoutingTable} (ht : t.Sound) (now : Time) {c : Contact}
    {id : Identity} (h : t.copies id = 0) (hne : c.identity ≠ id) :
    (t.push now c).2.copies id = 0 := by
  have hle := ht.copies_push_le now c id fun _ he => absurd he hne
  rw [if_neg hne] at hle
  omega

theorem Sound.copies_pushFrom_of_absent {t : RoutingTable} (ht : t.Sound) (clock : Clock) (i : Nat)
    {cs : List Contact} {id : Identity} (h : t.copies id = 0) (hcs : id ∉ ids cs) :
    (t.pushFrom clock i cs).copies id = 0 := by
  induction cs generalizing i t with
  | nil => exact h
  | cons c cs ih =>
    simp only [ids, List.map_cons, List.mem_cons, not_or] at hcs
    have hne : c.identity ≠ id := fun e => hcs.1 e.symm
    exact ih (ht.push _ c) (i + 1) (ht.copies_push_of_absent _ h hne) hcs.2

theorem Sound.heldOnce_pushFrom {t : RoutingTable} (ht : t.Sound) (h : t.HeldOnce) (clock : Clock)
    (i : Nat) {cs : List Contact} (hcs : (ids cs).Nodup) (hnew : ∀ id ∈ ids cs, t.copies id = 0) :
    (t.pushFrom clock i cs).HeldOnce := by
  induction cs generalizing i t with
  | nil => exact h
  | cons c cs ih =>
    obtain ⟨hc, hcs⟩ := List.nodup_cons.mp hcs
    have hfree := hnew c.identity List.mem_cons_self
    refine ih (ht.push _ c) ?_ (i + 1) hcs fun id hid => ?_
    · refine (ht.heldOnce_push_iff h _ c).mpr fun ⟨_, hclash⟩ => ?_
      rw [ht.copies_eq, List.count_eq_zero] at hfree
      refine hfree ?_
      simp only [Bucket.held, List.map_append, List.mem_append]
      exact .inr hclash.2.1
    · have hne : c.identity ≠ id := by
        rintro rfl
        exact hc hid
      exact ht.copies_push_of_absent _ (hnew id (List.mem_cons_of_mem _ hid)) hne

theorem Sound.copies_remove_le {t : RoutingTable} (ht : t.Sound) (id other : Identity) :
    (t.remove id).2.copies other ≤ t.copies other := by
  rw [(ht.remove id).copies_eq, ht.copies_eq]
  exact home_remove (P := fun b => (ids b.held).count other ≤ _) (Nat.le_refl _)
    fun was b' s => s.count_le other

/-! ## Evictions -/

/-- An eviction takes away one copy. -/
theorem Sound.copies_evict {t : RoutingTable} (ht : t.Sound) (id other : Identity) :
    (t.evict id).2.copies other = t.copies other - if other = id then 1 else 0 := by
  by_cases hself : id = t.identity
  · subst hself
    rw [evict_self]
    split
    · next h => rw [h, copies_eq_zero.mpr ht.self_not_held]
    · rfl
  · have hs := ht.evict id
    rw [evict_of_ne hself] at hs ⊢
    rw [hs.copies_eq, ht.copies_eq]
    by_cases hi : t.index id = t.index other
    · rw [home_setHome_of_eq _ hi, ← home_congr hi]
      exact (Bucket.evict_step id _).count other
    · have hne : other ≠ id := fun h => hi (by rw [h])
      rw [home_setHome_of_ne _ hi, if_neg hne]
      rfl

/-- The answer of an eviction says whether the identity was held. -/
theorem Sound.evict_fst {t : RoutingTable} (ht : t.Sound) (id : Identity) :
    (t.evict id).1 = true ↔ id ∈ ids t.held := by
  by_cases hself : id = t.identity
  · subst hself
    rw [evict_self]
    exact iff_of_false (by simp) ht.self_not_held
  · rw [evict_of_ne hself, ht.mem_ids_held_iff]
    exact (Bucket.evict_step id (t.home id)).fst_iff

/-! ## Sequences of operations -/

/-- Done to a table that holds no identity twice, the operation makes it hold one twice. -/
def Operation.Doubles : Operation → RoutingTable → Prop
  | push _ c, t => t.Takes c ∧ (t.home c.identity).Clashes c.identity
  | remove _, _ | evict _, _ | setSelf _ _, _ => False

/-- Under a new identity the table starts empty, and every contact is offered once. -/
theorem heldOnce_setSelf {t : RoutingTable} (h : t.HeldOnce) (clock : Clock) (c : Contact) :
    (t.setSelf clock c).HeldOnce := by
  unfold RoutingTable.setSelf
  split
  · exact h
  · refine (sound_new c).heldOnce_pushFrom ?_ clock 0 h fun id _ => ?_
    · rw [HeldOnce, held_new]
      exact List.nodup_nil
    · rw [copies_eq_zero, held_new]
      exact List.not_mem_nil

theorem Sound.heldOnce_apply_iff {t : RoutingTable} (ht : t.Sound) (h : t.HeldOnce)
    (o : Operation) : (o.apply t).HeldOnce ↔ ¬ o.Doubles t := by
  cases o with
  | push now c => exact ht.heldOnce_push_iff h now c
  | remove a =>
    refine iff_of_true (heldOnce_iff_copies.mpr fun id => ?_) not_false
    exact Nat.le_trans (ht.copies_remove_le a id) (heldOnce_iff_copies.mp h id)
  | evict a =>
    refine iff_of_true (heldOnce_iff_copies.mpr fun id => ?_) not_false
    have hid := heldOnce_iff_copies.mp h id
    have hcopies := ht.copies_evict a id
    simp only [Operation.apply]
    omega
  | setSelf clock c => exact iff_of_true (heldOnce_setSelf h clock c) not_false

/-- Every table on the way holds no identity twice if and only if no operation doubles one. -/
theorem Sound.heldOnce_run_iff {t : RoutingTable} (ht : t.Sound) (h : t.HeldOnce)
    (os : List Operation) : (∀ p, p <+: os → (t.run p).HeldOnce) ↔
      ∀ p o, p ++ [o] <+: os → ¬ o.Doubles (t.run p) := by
  have hstep : ∀ p o, (t.run p).HeldOnce →
      ((t.run (p ++ [o])).HeldOnce ↔ ¬ o.Doubles (t.run p)) := fun p o hp => by
    rw [run_append]
    exact (ht.run p).heldOnce_apply_iff hp o
  constructor
  · intro hall p o hpre
    have hp := hall p ((List.prefix_append p [o]).trans hpre)
    exact (hstep p o hp).mp (hall _ hpre)
  · intro hnone p hpre
    induction p using List.reverseRecOn with
    | nil => exact h
    | append_singleton p o ih =>
      have hp := ih ((List.prefix_append p [o]).trans hpre)
      exact (hstep p o hp).mpr (hnone p o hpre)

end RoutingTable

end SearchOverlay
