import SearchOverlay.Proofs.RoutingTable.Operations

/-!
# Adopted contacts

A contact that is offered to a table says when it was seen and how stale it is. Where its
identity is active or waits already, only its address is taken over. Where it gets a place of its
own it is adopted as it is, and what it says of itself stands in the table from then on.
-/

namespace SearchOverlay

namespace Contact

/-- The contact without what is said of when it was seen. -/
def blur (c : Contact) : Contact := ⟨c.identity, c.address, 0, 0⟩

theorem blur_eq_iff {c d : Contact} :
    c.blur = d.blur ↔ c.identity = d.identity ∧ c.address = d.address := by
  simp [blur]

end Contact

namespace Bucket

variable {c d : Contact} {cs l r : List Contact} {old : Contact} {b : Bucket}

/-! ## The oldest contact -/

theorem dropOldest_of_split (hl : ∀ d ∈ l, old.lastSeen < d.lastSeen)
    (hr : ∀ d ∈ r, old.lastSeen ≤ d.lastSeen) : dropOldest (l ++ old :: r) = l ++ r := by
  have hmin : ((l ++ old :: r).map (·.lastSeen.toNat)).min? = some old.lastSeen.toNat := by
    rw [List.min?_eq_some_iff]
    refine ⟨by simp, fun t ht => ?_⟩
    obtain ⟨e, he, rfl⟩ := List.mem_map.mp ht
    rcases List.mem_append.mp he with he | he
    · exact Nat.le_of_lt (UInt64.lt_iff_toNat_lt.mp (hl e he))
    · rcases List.mem_cons.mp he with rfl | he
      · exact Nat.le_refl _
      · exact UInt64.le_iff_toNat_le.mp (hr e he)
  have hbefore : ∀ e ∈ l, ¬ (e.lastSeen.toNat = old.lastSeen.toNat) := fun e he =>
    Nat.ne_of_gt (UInt64.lt_iff_toNat_lt.mp (hl e he))
  simp only [dropOldest, hmin]
  rw [List.eraseP_append_right, List.eraseP_cons_of_pos (by simp)]
  simpa using hbefore

/-- A newcomer that was seen before all others is the one that is dropped. -/
theorem dropOldest_concat_of_lt (h : ∀ d ∈ cs, c.lastSeen < d.lastSeen) :
    dropOldest (cs ++ [c]) = cs := by
  rw [dropOldest_of_split h (by simp), List.append_nil]

theorem dropOldest_concat_of_le (h : ∃ d ∈ cs, d.lastSeen ≤ c.lastSeen) :
    dropOldest (cs ++ [c]) = dropOldest cs ++ [c] := by
  obtain ⟨d, hd, hdc⟩ := h
  obtain ⟨l, old, r, rfl, hdrop, hl, hr⟩ := dropOldest_split (List.ne_nil_of_mem hd)
  have hold : old.lastSeen ≤ c.lastSeen := by
    refine UInt64.le_trans ?_ hdc
    rcases List.mem_append.mp hd with hd | hd
    · exact UInt64.le_of_lt (hl d hd)
    · rcases List.mem_cons.mp hd with rfl | hd
      · exact UInt64.le_refl _
      · exact hr d hd
  rw [hdrop, List.append_assoc, List.append_assoc, List.cons_append]
  apply dropOldest_of_split hl
  intro e he
  rcases List.mem_append.mp he with he | he
  · exact hr e he
  · rwa [List.mem_singleton.mp he]

/-! ## Waiting contacts -/

/-- The contact gets a place of its own among the replacements. -/
def Waits (c : Contact) (cs : List Contact) : Prop :=
  c.identity ∉ ids cs ∧ (cs.length < capacity ∨ ∃ d ∈ cs, d.lastSeen ≤ c.lastSeen)

theorem sortBySeen_concat_inj (h : sortBySeen (cs ++ [c]) = sortBySeen (cs ++ [d])) : c = d := by
  have hperm : (cs ++ [c]).Perm (cs ++ [d]) :=
    (sortBySeen_perm _).symm.trans (h ▸ sortBySeen_perm _)
  simpa using (List.perm_append_left_iff cs).mp hperm

theorem defer_of_held (now : Time) (h : c.identity ∈ ids cs) :
    defer now c cs = sortBySeen (updateFirst (hasId c.identity) (renew now c) cs) := by
  rw [defer, if_pos (any_hasId.mpr h)]

theorem defer_of_waits (now : Time) (h : Waits c cs) : defer now c cs =
    sortBySeen ((if cs.length < capacity then cs else dropOldest cs) ++ [c]) := by
  obtain ⟨hnew, hplace⟩ := h
  rw [defer, if_neg (mt any_hasId.mp hnew)]
  simp only [List.length_append, List.length_singleton]
  by_cases hroom : cs.length < capacity
  · rw [if_neg (Nat.not_lt.mpr hroom), if_pos hroom]
  · rw [if_pos (by omega), if_neg hroom, dropOldest_concat_of_le (hplace.resolve_left hroom)]

/-- A newcomer that does not get a place leaves the others as they are. -/
theorem defer_of_not_waits (now : Time) (hnew : c.identity ∉ ids cs) (h : ¬ Waits c cs) :
    defer now c cs = sortBySeen cs := by
  rw [Waits, not_and, not_or] at h
  obtain ⟨hfull, holder⟩ := h hnew
  have hlt : ∀ d ∈ cs, c.lastSeen < d.lastSeen := fun d hd =>
    UInt64.not_le.mp fun hle => holder ⟨d, hd, hle⟩
  rw [defer, if_neg (mt any_hasId.mp hnew)]
  simp only [List.length_append, List.length_singleton]
  rw [if_pos (by omega), dropOldest_concat_of_lt hlt]

theorem Waits.defer_ne (now : Time) (hc : Waits c cs) (hid : d.identity ∉ ids cs)
    (hd : ¬ Waits d cs) : defer now c cs ≠ defer now d cs := by
  rw [defer_of_waits now hc, defer_of_not_waits now hid hd]
  intro heq
  have hmem : c ∈ sortBySeen cs := heq ▸ (sortBySeen_perm _).mem_iff.mpr (by simp)
  exact hc.1 (List.mem_map_of_mem ((sortBySeen_perm cs).mem_iff.mp hmem))

theorem defer_eq_iff (now : Time) (h : c.blur = d.blur) :
    defer now c cs = defer now d cs ↔ c = d ∨ ¬ Waits c cs ∧ ¬ Waits d cs := by
  obtain ⟨hid, haddress⟩ := Contact.blur_eq_iff.mp h
  by_cases hheld : c.identity ∈ ids cs
  · have hrenew : renew now c = renew now d := by
      funext old
      simp only [renew, haddress]
    have hsame : defer now c cs = defer now d cs := by
      rw [defer_of_held now hheld, defer_of_held now (hid ▸ hheld), hid, hrenew]
    have hc : ¬ Waits c cs := fun hc => hc.1 hheld
    have hd : ¬ Waits d cs := fun hd => hd.1 (hid ▸ hheld)
    simp only [hsame, hc, hd, not_false_eq_true, and_self, or_true]
  · have hheld' : d.identity ∉ ids cs := hid ▸ hheld
    constructor
    · intro heq
      by_cases hc : Waits c cs
      · by_cases hd : Waits d cs
        · rw [defer_of_waits now hc, defer_of_waits now hd] at heq
          exact .inl (sortBySeen_concat_inj heq)
        · exact absurd heq (hc.defer_ne now hheld' hd)
      · by_cases hd : Waits d cs
        · exact absurd heq.symm (hd.defer_ne now hheld hc)
        · exact .inr ⟨hc, hd⟩
    · rintro (rfl | ⟨hc, hd⟩)
      · rfl
      · rw [defer_of_not_waits now hheld hc, defer_of_not_waits now hheld' hd]

/-! ## Offers to a bucket -/

/-- The contact gets a place of its own in the bucket. -/
def Adopts (b : Bucket) (c : Contact) : Prop :=
  c.identity ∉ ids b.active ∧ (b.active.length < capacity ∨
    (∃ d ∈ b.active, staleThreshold ≤ d.staleCount.toNat) ∨ Waits c b.replacements)

theorem push_eq_iff (now : Time) (b : Bucket) (h : c.blur = d.blur) :
    (b.push now c).2 = (b.push now d).2 ↔ c = d ∨ ¬ b.Adopts c ∧ ¬ b.Adopts d := by
  obtain ⟨hid, haddress⟩ := Contact.blur_eq_iff.mp h
  unfold push Adopts
  rw [← hid]
  cases hfind : b.active.find? (hasId c.identity) with
  | some old =>
    have hheld : c.identity ∈ ids b.active :=
      List.mem_map.mpr ⟨old, List.mem_of_find?_eq_some hfind,
        hasId_iff.mp (List.find?_some hfind)⟩
    have hrenew : renew now c old = renew now d old := by simp only [renew, haddress]
    simp only [hrenew, hheld, not_true_eq_false, false_and, not_false_eq_true, and_self, or_true]
  | none =>
    have hnew : c.identity ∉ ids b.active := fun hheld => by
      obtain ⟨old, hold, hid⟩ := List.mem_map.mp hheld
      exact List.find?_eq_none.mp hfind old hold (hasId_iff.mpr hid)
    by_cases hroom : b.active.length < capacity
    · simp [hroom, hnew]
    · cases hstale : stalest? b.active with
      | some i =>
        obtain ⟨l, old, r, hsplit, rfl, hthreshold, -⟩ := stalest?_eq_some hstale
        have hold : ∃ e ∈ b.active, staleThreshold ≤ e.staleCount.toNat :=
          ⟨old, by simp [hsplit], hthreshold⟩
        simp only [hroom, hnew, hold, if_false]
        simp [hsplit]
      | none =>
        have hfine : ¬ ∃ e ∈ b.active, staleThreshold ≤ e.staleCount.toNat :=
          fun ⟨e, he, hle⟩ => Nat.not_lt.mpr hle (stalest?_eq_none hstale e he)
        simp [hroom, hnew, hfine, defer_eq_iff now h]

end Bucket

namespace RoutingTable

variable {t : RoutingTable} {c d : Contact}

def Adopts (t : RoutingTable) (c : Contact) : Prop :=
  t.Takes c ∧ (t.home c.identity).Adopts c

theorem setHome_inj {id : Identity} {b b' : Bucket} :
    t.setHome id b = t.setHome id b' ↔ b = b' := by
  constructor
  · intro h
    have hbucket := congrArg (·.bucket (t.index id)) h
    simpa only [bucket_setHome, if_pos] using hbucket
  · rintro rfl
    rfl

/-- Offers of contacts that differ only in what they say of themselves make different tables if
and only if one of the two is adopted. -/
theorem push_eq_iff (now : Time) (t : RoutingTable) (h : c.blur = d.blur) :
    (t.push now c).2 = (t.push now d).2 ↔ c = d ∨ ¬ t.Adopts c ∧ ¬ t.Adopts d := by
  obtain ⟨hid, haddress⟩ := Contact.blur_eq_iff.mp h
  have htakes : t.Takes c ↔ t.Takes d := by rw [Takes, Takes, hid, haddress]
  unfold Adopts
  by_cases hc : t.Takes c
  · have hd := htakes.mp hc
    rw [push_of_takes now hc, push_of_takes now hd, ← hid, setHome_inj, Bucket.push_eq_iff now _ h]
    simp only [hc, hd, true_and]
  · have hd := mt htakes.mpr hc
    rw [push_of_not_takes now hc, push_of_not_takes now hd]
    simp only [hc, hd, false_and, not_false_eq_true, and_self, or_true]

end RoutingTable

end SearchOverlay
