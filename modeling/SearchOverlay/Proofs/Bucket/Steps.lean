import SearchOverlay.Bucket

/-!
# What the operations of a bucket do

Each operation on a bucket as a relation with one rule for every case. The rules show the
lists split where the operation works: `l ++ old :: r` is a list whose first contact of
interest is `old`. `push_step`, `remove_step` and `evict_step` say that the functions do what
the rules say, `defer_step` says it of the replacements; whatever holds of a bucket in the
long run is read off the rules.
-/

namespace SearchOverlay

/-- The identities of contacts, in order. -/
abbrev ids (cs : List Contact) : List Identity := cs.map (·.identity)

namespace Bucket

@[simp] theorem hasId_iff {id : Identity} {c : Contact} : hasId id c = true ↔ c.identity = id := by
  simp [hasId]

@[simp] theorem hasId_eq_false_iff {id : Identity} {c : Contact} :
    hasId id c = false ↔ c.identity ≠ id := by
  simp [hasId]

theorem any_hasId {id : Identity} {cs : List Contact} :
    cs.any (hasId id) = true ↔ id ∈ ids cs := by
  simp [List.any_eq_true]

@[simp] theorem renew_identity (now : Time) (c old : Contact) :
    (renew now c old).identity = old.identity := rfl

@[simp] theorem renew_staleCount (now : Time) (c old : Contact) :
    (renew now c old).staleCount = 0 := rfl

@[simp] theorem moreStale_identity (c : Contact) : (moreStale c).identity = c.identity := rfl

/-! ## The first contact of interest -/

/-- `old` is the first contact in `l ++ old :: r` with its identity. -/
theorem split_of_mem_ids {id : Identity} {cs : List Contact} (h : id ∈ ids cs) :
    ∃ l old r, cs = l ++ old :: r ∧ old.identity = id ∧ id ∉ ids l := by
  obtain ⟨old, hf⟩ : ∃ old, cs.find? (hasId id) = some old := by
    rw [← Option.isSome_iff_exists, List.find?_isSome]
    obtain ⟨c, hc, hid⟩ := List.mem_map.mp h
    exact ⟨c, hc, hasId_iff.mpr hid⟩
  obtain ⟨hold, l, r, rfl, hl⟩ := List.find?_eq_some_iff_append.mp hf
  refine ⟨l, old, r, rfl, hasId_iff.mp hold, fun hmem => ?_⟩
  obtain ⟨c, hc, hid⟩ := List.mem_map.mp hmem
  simpa [hid] using (hl c hc : (!hasId id c) = true)

theorem find?_split {id : Identity} {l r : List Contact} {old : Contact} (ho : old.identity = id)
    (hl : id ∉ ids l) : (l ++ old :: r).find? (hasId id) = some old := by
  refine List.find?_eq_some_iff_append.mpr ⟨hasId_iff.mpr ho, l, r, rfl, fun c hc => ?_⟩
  have : c.identity ≠ id := fun e => hl (List.mem_map.mpr ⟨c, hc, e⟩)
  simpa using this

theorem find?_of_not_mem {id : Identity} {cs : List Contact} (h : id ∉ ids cs) :
    cs.find? (hasId id) = none := by
  refine List.find?_eq_none.mpr fun c hc hid => h (List.mem_map.mpr ⟨c, hc, ?_⟩)
  exact hasId_iff.mp hid

theorem eraseP_split {id : Identity} {l r : List Contact} {old : Contact} (ho : old.identity = id)
    (hl : id ∉ ids l) : (l ++ old :: r).eraseP (hasId id) = l ++ r := by
  rw [List.eraseP_append_right, List.eraseP_cons_of_pos (hasId_iff.mpr ho)]
  intro c hc hid
  exact hl (List.mem_map.mpr ⟨c, hc, hasId_iff.mp hid⟩)

theorem updateFirst_split {id : Identity} {l r : List Contact} {old : Contact}
    (f : Contact → Contact) (ho : old.identity = id) (hl : id ∉ ids l) :
    updateFirst (hasId id) f (l ++ old :: r) = l ++ f old :: r := by
  induction l with
  | nil => simp [updateFirst, ho]
  | cons c l ih =>
    simp only [ids, List.map_cons, List.mem_cons, not_or] at hl
    simp [updateFirst, Ne.symm hl.1, ih hl.2]

theorem not_mem_ids_filter (id : Identity) (cs : List Contact) :
    id ∉ ids (cs.filter (! hasId id ·)) := by
  intro h
  obtain ⟨c, hc, hid⟩ := List.mem_map.mp h
  have hne : c.identity ≠ id := by simpa using (List.mem_filter.mp hc).2
  exact hne hid

/-! ## The stalest contact and the oldest one -/

theorem stalest?_eq_some {cs : List Contact} {i : Nat} (h : stalest? cs = some i) :
    ∃ l old r, cs = l ++ old :: r ∧ l.length = i ∧ staleThreshold ≤ old.staleCount.toNat ∧
      (∀ d ∈ l, d.staleCount < old.staleCount) ∧ ∀ d ∈ r, d.staleCount ≤ old.staleCount := by
  unfold stalest? at h
  split at h
  · next worst hm =>
    obtain ⟨-, hworst⟩ := List.max?_eq_some_iff.mp hm
    have hle : ∀ d ∈ cs, d.staleCount.toNat ≤ worst := fun d hd =>
      hworst _ (List.mem_map.mpr ⟨d, hd, rfl⟩)
    split at h
    · next hthr =>
      obtain ⟨hi, hget, hfirst⟩ := List.findIdx?_eq_some_iff_getElem.mp h
      have hold : cs[i].staleCount.toNat = worst := by simpa using hget
      have hsplit : cs = cs.take i ++ cs[i] :: cs.drop (i + 1) := by simp
      refine ⟨cs.take i, cs[i], cs.drop (i + 1), hsplit, by simp; omega, by omega,
        fun d hd => ?_, fun d hd => ?_⟩
      · obtain ⟨j, hj, rfl⟩ := List.mem_take_iff_getElem.mp hd
        have hne : cs[j].staleCount.toNat ≠ worst := by simpa using hfirst j (by omega)
        have := hle cs[j] (List.getElem_mem _)
        exact UInt8.lt_iff_toNat_lt.mpr (by omega)
      · have := hle d (List.mem_of_mem_drop hd)
        exact UInt8.le_iff_toNat_le.mpr (by omega)
    · cases h
  · cases h

theorem stalest?_eq_none {cs : List Contact} (h : stalest? cs = none) :
    ∀ d ∈ cs, d.staleCount.toNat < staleThreshold := by
  intro d hd
  unfold stalest? at h
  split at h
  · next worst hm =>
    obtain ⟨hin, hworst⟩ := List.max?_eq_some_iff.mp hm
    have hle := hworst _ (List.mem_map.mpr ⟨d, hd, rfl⟩)
    split at h
    · obtain ⟨e, he, hew⟩ := List.mem_map.mp hin
      have := List.findIdx?_eq_none_iff.mp h e he
      simp [hew] at this
    · omega
  · next hm =>
    have : cs = [] := by simpa using hm
    subst this
    cases hd

theorem dropOldest_split {cs : List Contact} (h : cs ≠ []) :
    ∃ l old r, cs = l ++ old :: r ∧ dropOldest cs = l ++ r ∧
      (∀ d ∈ l, old.lastSeen < d.lastSeen) ∧ ∀ d ∈ r, old.lastSeen ≤ d.lastSeen := by
  unfold dropOldest
  split
  · next oldest hm =>
    obtain ⟨hin, hold⟩ := List.min?_eq_some_iff.mp hm
    have hle : ∀ d ∈ cs, oldest ≤ d.lastSeen.toNat := fun d hd =>
      hold _ (List.mem_map.mpr ⟨d, hd, rfl⟩)
    obtain ⟨e, he, heo⟩ := List.mem_map.mp hin
    obtain ⟨old, l, r, hl, hp, hsplit, herase⟩ :=
      List.exists_of_eraseP (p := (·.lastSeen.toNat = oldest)) he (by simpa using heo)
    have hp : old.lastSeen.toNat = oldest := by simpa using hp
    refine ⟨l, old, r, hsplit, herase, fun d hd => ?_, fun d hd => ?_⟩
    · have hne : d.lastSeen.toNat ≠ oldest := by simpa using hl d hd
      have := hle d (by rw [hsplit]; simp [hd])
      exact UInt64.lt_iff_toNat_lt.mpr (by omega)
    · have := hle d (by rw [hsplit]; simp [hd])
      exact UInt64.le_iff_toNat_le.mpr (by omega)
  · next hm => exact absurd (by simpa using hm) h

/-! ## Rules -/

/-- What becomes of the replacements when `c` is left to wait. -/
inductive DeferStep (now : Time) (c : Contact) : List Contact → List Contact → Prop where
  | renewed {l old r} (named : old.identity = c.identity) (first : c.identity ∉ ids l) :
      DeferStep now c (l ++ old :: r) (sortBySeen (l ++ renew now c old :: r))
  | added {cs} (new : c.identity ∉ ids cs) (room : cs.length < capacity) :
      DeferStep now c cs (sortBySeen (cs ++ [c]))
  | dropped {cs l old r} (new : c.identity ∉ ids cs) (full : capacity ≤ cs.length)
      (split : cs ++ [c] = l ++ old :: r) (before : ∀ d ∈ l, old.lastSeen < d.lastSeen)
      (after : ∀ d ∈ r, old.lastSeen ≤ d.lastSeen) : DeferStep now c cs (sortBySeen (l ++ r))

/-- What offering `c` to a bucket does. -/
inductive PushStep (now : Time) (c : Contact) : Bucket → PushOutcome → Bucket → Prop where
  | refreshed {h l old r rs} (named : old.identity = c.identity) (first : c.identity ∉ ids l) :
      PushStep now c ⟨h, l ++ old :: r, rs⟩ .refreshed ⟨h, renew now c old :: (l ++ r), rs⟩
  | inserted {h as rs} (new : c.identity ∉ ids as) (room : as.length < capacity) :
      PushStep now c ⟨h, as, rs⟩ .inserted
        ⟨h, as ++ [c], rs.filter (! hasId c.identity ·)⟩
  | replaced {h l old r rs} (new : c.identity ∉ ids (l ++ old :: r))
      (full : capacity ≤ (l ++ old :: r).length) (stale : staleThreshold ≤ old.staleCount.toNat)
      (before : ∀ d ∈ l, d.staleCount < old.staleCount)
      (after : ∀ d ∈ r, d.staleCount ≤ old.staleCount) :
      PushStep now c ⟨h, l ++ old :: r, rs⟩ (.replacedStale old) ⟨h, l ++ c :: r, rs⟩
  | deferred {h as rs rs'} (new : c.identity ∉ ids as) (full : capacity ≤ as.length)
      (fine : ∀ d ∈ as, d.staleCount.toNat < staleThreshold) (wait : DeferStep now c rs rs') :
      PushStep now c ⟨h, as, rs⟩ .deferred ⟨h, as, rs'⟩

/-- What a removal does. -/
inductive RemoveStep (id : Identity) : Bucket → Bool → Bucket → Prop where
  | absent {h as rs} (none : id ∉ ids as) : RemoveStep id ⟨h, as, rs⟩ false ⟨h, as, rs⟩
  | marked {h l old r} (named : old.identity = id) (first : id ∉ ids l) :
      RemoveStep id ⟨h, l ++ old :: r, []⟩ true ⟨h, l ++ moreStale old :: r, []⟩
  | promoted {h l old r next rs} (named : old.identity = id) (first : id ∉ ids l) :
      RemoveStep id ⟨h, l ++ old :: r, next :: rs⟩ true ⟨h, l ++ next :: r, sortBySeen rs⟩

/-- What an eviction does. -/
inductive EvictStep (id : Identity) : Bucket → Bool → Bucket → Prop where
  | absent {h as rs} (none : id ∉ ids as) (waiting : id ∉ ids rs) :
      EvictStep id ⟨h, as, rs⟩ false ⟨h, as, rs⟩
  | dropped {h l old r} (named : old.identity = id) (first : id ∉ ids l) :
      EvictStep id ⟨h, l ++ old :: r, []⟩ true ⟨h, l ++ r, []⟩
  | promoted {h l old r next rs} (named : old.identity = id) (first : id ∉ ids l) :
      EvictStep id ⟨h, l ++ old :: r, next :: rs⟩ true ⟨h, l ++ next :: r, rs⟩
  | waiting {h as l old r} (none : id ∉ ids as) (named : old.identity = id) (first : id ∉ ids l) :
      EvictStep id ⟨h, as, l ++ old :: r⟩ true ⟨h, as, l ++ r⟩

theorem defer_step (now : Time) (c : Contact) (cs : List Contact) :
    DeferStep now c cs (defer now c cs) := by
  unfold defer
  split
  · next h =>
    obtain ⟨l, old, r, rfl, hold, hl⟩ := split_of_mem_ids (any_hasId.mp h)
    rw [updateFirst_split _ hold hl]
    exact .renewed hold hl
  · next h =>
    have hnew : c.identity ∉ ids cs := fun e => h (any_hasId.mpr e)
    simp only [List.length_append, List.length_cons, List.length_nil]
    split
    · have hne : cs ++ [c] ≠ [] := by simp
      obtain ⟨l, old, r, hsplit, hdrop, hl, hr⟩ := dropOldest_split hne
      rw [hdrop]
      exact .dropped hnew (by omega) hsplit hl hr
    · exact .added hnew (by omega)

theorem push_step (now : Time) (c : Contact) (b : Bucket) :
    PushStep now c b (b.push now c).1 (b.push now c).2 := by
  obtain ⟨h, as, rs⟩ := b
  by_cases hact : c.identity ∈ ids as
  · obtain ⟨l, old, r, rfl, hold, hl⟩ := split_of_mem_ids hact
    simp only [push, find?_split hold hl, eraseP_split hold hl]
    exact .refreshed hold hl
  · simp only [push, find?_of_not_mem hact]
    split
    · next hroom => exact .inserted hact hroom
    · next hfull =>
      split
      · next i hi =>
        obtain ⟨l, old, r, rfl, rfl, hstale, hl, hr⟩ := stalest?_eq_some hi
        have hget : (l ++ old :: r).getD l.length c = old := by simp
        have hset : (l ++ old :: r).set l.length c = l ++ c :: r := by simp
        rw [hget, hset]
        exact .replaced hact (Nat.le_of_not_lt hfull) hstale hl hr
      · next hi =>
        exact .deferred hact (Nat.le_of_not_lt hfull) (stalest?_eq_none hi) (defer_step now c rs)

theorem remove_of_not_mem {id : Identity} {b : Bucket} (h : id ∉ ids b.active) :
    b.remove id = (false, b) := by
  simp [remove, mt any_hasId.mp h]

theorem evict_of_not_mem {id : Identity} {b : Bucket} (h : id ∉ ids b.held) :
    b.evict id = (false, b) := by
  rw [held, ids, List.map_append, List.mem_append, not_or] at h
  simp [evict, mt any_hasId.mp h.1, mt any_hasId.mp h.2]

theorem remove_step (id : Identity) (b : Bucket) :
    RemoveStep id b (b.remove id).1 (b.remove id).2 := by
  obtain ⟨h, as, rs⟩ := b
  by_cases hact : id ∈ ids as
  · obtain ⟨l, old, r, rfl, hold, hl⟩ := split_of_mem_ids hact
    cases rs with
    | nil =>
      simp only [remove, any_hasId.mpr hact, if_true, updateFirst_split _ hold hl]
      exact .marked hold hl
    | cons next rs =>
      simp only [remove, any_hasId.mpr hact, if_true, updateFirst_split _ hold hl]
      exact .promoted hold hl
  · rw [remove_of_not_mem hact]
    exact .absent hact

theorem evict_step (id : Identity) (b : Bucket) :
    EvictStep id b (b.evict id).1 (b.evict id).2 := by
  obtain ⟨h, as, rs⟩ := b
  by_cases hact : id ∈ ids as
  · obtain ⟨l, old, r, rfl, hold, hl⟩ := split_of_mem_ids hact
    cases rs with
    | nil =>
      simp only [evict, any_hasId.mpr hact, if_true, eraseP_split hold hl]
      exact .dropped hold hl
    | cons next rs =>
      simp only [evict, any_hasId.mpr hact, if_true, updateFirst_split _ hold hl]
      exact .promoted hold hl
  · simp only [evict, mt any_hasId.mp hact]
    by_cases hwait : id ∈ ids rs
    · obtain ⟨l, old, r, rfl, hold, hl⟩ := split_of_mem_ids hwait
      simp only [any_hasId.mpr hwait, if_true, eraseP_split hold hl]
      exact .waiting hact hold hl
    · simp only [mt any_hasId.mp hwait]
      exact .absent hact hwait

end Bucket

end SearchOverlay
