import SearchOverlay.Store

/-!
# Shelves

A store has two shelves, one for records and one for metadata. Both are merged by one rule: an
entry that the held one of its hash covers is passed over, and any other one comes to an entry
that covers it and the held one and takes that one's place. `Lawful` says so, and what follows
from it holds of either shelf.
-/

namespace SearchOverlay

theorem lawful_maxOfLe {α : Type} [LE α] [DecidableLE α] [Std.IsLinearOrder α] :
    @Std.LawfulOrderLeftLeaningMax α maxOfLe _ := by
  let _ : Max α := maxOfLe
  constructor
  · intro a b h
    show (if a ≤ b then b else a) = a
    split
    · next h' => exact Std.le_antisymm h h'
    · rfl
  · intro a b h
    show (if a ≤ b then b else a) = b
    rw [if_pos (Std.le_of_not_ge h)]

instance instLawfulMaxUInt32 : Std.LawfulOrderLeftLeaningMax UInt32 := lawful_maxOfLe

instance instLawfulMaxUInt64 : Std.LawfulOrderLeftLeaningMax UInt64 := lawful_maxOfLe

namespace Store

/-- The count goes on from where it stands. -/
theorem mergeEach_from {α : Type} (f : α → Store → Bool × Store) (items : List α) (n : Nat)
    (s : Store) : items.foldl (fun (p : Nat × Store) a =>
      (if (f a p.2).1 then p.1 + 1 else p.1, (f a p.2).2)) (n, s) =
      (n + (mergeEach f items s).1, (mergeEach f items s).2) := by
  induction items generalizing n s with
  | nil => rfl
  | cons a items ih =>
    have hcons : mergeEach f (a :: items) s = items.foldl (fun (p : Nat × Store) a =>
        (if (f a p.2).1 then p.1 + 1 else p.1, (f a p.2).2))
        (if (f a s).1 then 0 + 1 else 0, (f a s).2) := rfl
    rw [hcons, List.foldl_cons, ih, ih]
    split <;> simp [Nat.add_assoc]

theorem mergeEach_cons {α : Type} (f : α → Store → Bool × Store) (a : α) (items : List α)
    (s : Store) : mergeEach f (a :: items) s =
      ((if (f a s).1 then 1 else 0) + (mergeEach f items (f a s).2).1,
        (mergeEach f items (f a s).2).2) :=
  mergeEach_from f items (if (f a s).1 then 1 else 0) (f a s).2

theorem mergeEach_snd {α : Type} (f : α → Store → Bool × Store) (items : List α) (s : Store) :
    (mergeEach f items s).2 = items.foldl (fun s a => (f a s).2) s := by
  induction items generalizing s with
  | nil => rfl
  | cons a items ih => rw [mergeEach_cons, ih, List.foldl_cons]

structure Shelf (α : Type) where
  hash : α → ContentHash
  time : α → Time
  /-- Whether the first entry says nothing that the second does not cover. -/
  within : α → α → Prop
  entries : Store → Std.ExtTreeMap ContentHash α
  /-- The watermark. -/
  mark : Store → Time
  put : α → Store → Store
  merge : α → Store → Bool × Store

namespace Shelf

variable {α β : Type} {K : Shelf α} {L : Shelf β} {s : Store} {a b : α} {as : List α}

def records : Shelf Record where
  hash := Record.hash
  time := Record.timestamp
  within r q := r.timestamp ≤ q.timestamp
  entries := Store.records
  mark s := s.status.results
  put := insert
  merge := mergeRecord

def metadata : Shelf Metadata where
  hash := Metadata.hash
  time := Metadata.timestamp
  within m q := m.timestamp ≤ q.timestamp ∧ m.votes ≤ q.votes
  entries := Store.metadata
  mark s := s.status.metadata
  put := insertMetadata
  merge := mergeMetadatum

def held (K : Shelf α) (s : Store) (h : ContentHash) : Option α := (K.entries s)[h]?

/-- The held entry of its hash covers the entry. -/
def Covers (K : Shelf α) (s : Store) (a : α) : Prop :=
  ∃ old, K.held s (K.hash a) = some old ∧ K.within a old

/-- Merges entries one after the other and counts the changes. -/
abbrev mergeAll (K : Shelf α) (as : List α) (s : Store) : Nat × Store := mergeEach K.merge as s

/-- What merging an entry does, and whether it counts as a change. -/
inductive MergeStep (K : Shelf α) (a : α) (s : Store) : Bool → Store → Prop where
  | known (covered : K.Covers s a) : MergeStep K a s false s
  | taken {b : α} (news : ¬ K.Covers s a) (hash : K.hash b = K.hash a)
      (within : K.within a b) (replaces : ∀ old, K.held s (K.hash a) = some old → K.within old b)
      (first : K.held s (K.hash a) = none → b = a) : MergeStep K a s true (K.put b s)

structure Lawful (K : Shelf α) : Prop where
  entries_empty : K.entries empty = ∅
  mark_empty : K.mark empty = 0
  entries_put : ∀ a s, K.entries (K.put a s) = (K.entries s).insert (K.hash a) a
  mark_put : ∀ a s, K.mark (K.put a s) = max (K.mark s) (K.time a)
  trans : ∀ {a b c}, K.within a b → K.within b c → K.within a c
  time_le : ∀ {a b}, K.within a b → K.time a ≤ K.time b
  step : ∀ a s, K.MergeStep a s (K.merge a s).1 (K.merge a s).2

/-- What is put on one shelf leaves the other alone. -/
def Apart (K : Shelf α) (L : Shelf β) : Prop :=
  ∀ b s, K.entries (L.put b s) = K.entries s ∧ K.mark (L.put b s) = K.mark s

/-! ## The two shelves -/

theorem records_step (r : Record) (s : Store) :
    records.MergeStep r s (s.mergeRecord r).1 (s.mergeRecord r).2 := by
  unfold mergeRecord
  cases hold : s.record? r.hash with
  | none =>
    refine .taken (K := records) (b := r) ?_ rfl (UInt64.le_refl _) ?_ fun _ => rfl
    · rintro ⟨old, hheld, -⟩
      cases hold.symm.trans hheld
    · intro old hheld
      cases hold.symm.trans hheld
  | some old =>
    by_cases hle : r.timestamp ≤ old.timestamp
    · simp only [if_pos hle]
      exact .known ⟨old, hold, hle⟩
    · simp only [if_neg hle]
      refine .taken (K := records) (b := r) ?_ rfl (UInt64.le_refl _) ?_ fun _ => rfl
      · rintro ⟨old', hheld, hle'⟩
        cases hold.symm.trans hheld
        exact hle hle'
      · intro old' hheld
        cases hold.symm.trans hheld
        exact Std.le_of_not_ge hle

theorem metadata_step (m : Metadata) (s : Store) :
    metadata.MergeStep m s (s.mergeMetadatum m).1 (s.mergeMetadatum m).2 := by
  unfold mergeMetadatum
  cases hold : s.metadata? m.hash with
  | none =>
    refine .taken (K := metadata) (b := m) ?_ rfl ⟨UInt64.le_refl _, UInt32.le_refl _⟩ ?_
      fun _ => rfl
    · rintro ⟨old, hheld, -⟩
      cases hold.symm.trans hheld
    · intro old hheld
      cases hold.symm.trans hheld
  | some old =>
    by_cases hle : m.timestamp ≤ old.timestamp ∧ m.votes ≤ old.votes
    · simp only [hle.1, hle.2, decide_true, Bool.and_self, if_true]
      exact .known ⟨old, hold, hle⟩
    · have hnews :
          (decide (m.timestamp ≤ old.timestamp) && decide (m.votes ≤ old.votes)) = false := by
        simpa using hle
      simp only [hnews, Bool.false_eq_true, if_false]
      refine .taken (K := metadata) (b := combine old m) ?_ rfl
        ⟨Std.right_le_max, Std.right_le_max⟩ ?_ fun hnone => ?_
      · rintro ⟨old', hheld, hle'⟩
        cases hold.symm.trans hheld
        exact hle hle'
      · intro old' hheld
        cases hold.symm.trans hheld
        exact ⟨Std.left_le_max, Std.left_le_max⟩
      · cases hold.symm.trans hnone

theorem lawful_records : records.Lawful where
  entries_empty := rfl
  mark_empty := rfl
  entries_put _ _ := rfl
  mark_put _ _ := rfl
  trans := UInt64.le_trans
  time_le := id
  step := records_step

theorem lawful_metadata : metadata.Lawful where
  entries_empty := rfl
  mark_empty := rfl
  entries_put _ _ := rfl
  mark_put _ _ := rfl
  trans h h' := ⟨UInt64.le_trans h.1 h'.1, UInt32.le_trans h.2 h'.2⟩
  time_le h := h.1
  step := metadata_step

theorem records_apart : records.Apart metadata := fun _ _ => ⟨rfl, rfl⟩

theorem metadata_apart : metadata.Apart records := fun _ _ => ⟨rfl, rfl⟩

/-! ## What is held -/

theorem Lawful.held_empty (hK : K.Lawful) (h : ContentHash) : K.held empty h = none := by
  rw [held, hK.entries_empty, Std.ExtTreeMap.getElem?_empty]

theorem Lawful.held_put (hK : K.Lawful) (a : α) (s : Store) (h : ContentHash) :
    K.held (K.put a s) h = if K.hash a = h then some a else K.held s h := by
  simp only [held, hK.entries_put, Std.ExtTreeMap.getElem?_insert, Std.compare_eq_iff_eq]

theorem mergeAll_cons (K : Shelf α) (a : α) (as : List α) (s : Store) :
    (K.mergeAll (a :: as) s).2 = (K.mergeAll as (K.merge a s).2).2 := by
  rw [mergeAll, mergeEach_cons]

/-- Batches make no difference. -/
theorem mergeAll_flatten (K : Shelf α) (bs : List (List α)) (s : Store) :
    bs.foldl (fun s as => (K.mergeAll as s).2) s = (K.mergeAll bs.flatten s).2 := by
  rw [mergeEach_snd, List.foldl_flatten]
  simp only [mergeEach_snd]

theorem MergeStep.keeps {P : Store → Prop} {changed : Bool} {s' : Store}
    (h : K.MergeStep a s changed s') (hs : P s) (hput : ∀ b, P (K.put b s)) : P s' := by
  cases h with
  | known => exact hs
  | taken => exact hput _

/-- What holds of a store and is kept whenever an entry is put is kept by merges. -/
theorem Lawful.mergeAll_rec (hK : K.Lawful) {P : Store → Prop} (hs : P s)
    (hput : ∀ s a, P s → P (K.put a s)) (as : List α) : P (K.mergeAll as s).2 := by
  rw [mergeEach_snd]
  exact List.foldlRecOn as _ hs fun s hs a _ => (hK.step a s).keeps hs fun b => hput s b hs

/-- Merges on one shelf leave the other alone. -/
theorem Apart.mergeAll (h : K.Apart L) (hL : L.Lawful) (bs : List β) (s : Store) :
    K.entries (L.mergeAll bs s).2 = K.entries s ∧ K.mark (L.mergeAll bs s).2 = K.mark s := by
  refine hL.mergeAll_rec (P := fun t => K.entries t = K.entries s ∧ K.mark t = K.mark s)
    ⟨rfl, rfl⟩ (fun t b ht => ?_) bs
  obtain ⟨hentries, hmark⟩ := h b t
  exact ⟨hentries.trans ht.1, hmark.trans ht.2⟩

/-! ## New entries -/

/-- Puts entries one after the other. -/
def putAll (K : Shelf α) (as : List α) (s : Store) : Store := as.foldl (fun s a => K.put a s) s

theorem Lawful.held_putAll_of_not_mem (hK : K.Lawful) {h : ContentHash}
    (hh : h ∉ as.map K.hash) : K.held (K.putAll as s) h = K.held s h := by
  induction as generalizing s with
  | nil => rfl
  | cons a as ih =>
    rw [List.map_cons, List.mem_cons, not_or] at hh
    exact (ih hh.2).trans (by rw [hK.held_put, if_neg (Ne.symm hh.1)])

theorem Lawful.held_putAll_of_mem (hK : K.Lawful) (hnodup : (as.map K.hash).Nodup) (ha : a ∈ as) :
    K.held (K.putAll as s) (K.hash a) = some a := by
  induction as generalizing s with
  | nil => cases ha
  | cons b as ih =>
    obtain ⟨hb, hnodup⟩ := List.nodup_cons.mp hnodup
    rcases List.mem_cons.mp ha with rfl | ha
    · refine (hK.held_putAll_of_not_mem hb).trans ?_
      rw [hK.held_put, if_pos rfl]
    · exact ih hnodup ha

theorem Lawful.merge_of_none (hK : K.Lawful) (h : K.held s (K.hash a) = none) :
    K.merge a s = (true, K.put a s) := by
  have hstep := hK.step a s
  generalize K.merge a s = r at hstep
  obtain ⟨changed, s'⟩ := r
  cases hstep with
  | known covered =>
    obtain ⟨old, hold, -⟩ := covered
    cases h.symm.trans hold
  | taken _ _ _ _ first => rw [first h]

/-- Entries whose hashes are new and different are all put on the shelf. -/
theorem Lawful.mergeAll_of_new (hK : K.Lawful) (hnodup : (as.map K.hash).Nodup)
    (hnew : ∀ a ∈ as, K.held s (K.hash a) = none) : (K.mergeAll as s).2 = K.putAll as s := by
  induction as generalizing s with
  | nil => rfl
  | cons a as ih =>
    obtain ⟨ha, hnodup⟩ := List.nodup_cons.mp hnodup
    obtain ⟨hnone, hnew⟩ := List.forall_mem_cons.mp hnew
    rw [mergeAll_cons, hK.merge_of_none hnone]
    refine ih hnodup fun b hb => ?_
    rw [hK.held_put, if_neg, hnew b hb]
    exact fun heq => ha (List.mem_map.mpr ⟨b, hb, heq.symm⟩)

/-! ## Soundness -/

/-- Every entry is held under its own hash, and the watermark has seen it. -/
structure Sound (K : Shelf α) (s : Store) : Prop where
  hash : ∀ {h a}, K.held s h = some a → K.hash a = h
  seen : ∀ {h a}, K.held s h = some a → K.time a ≤ K.mark s

theorem Lawful.sound_empty (hK : K.Lawful) : K.Sound empty where
  hash h := by rw [hK.held_empty] at h; cases h
  seen h := by rw [hK.held_empty] at h; cases h

theorem Lawful.sound_put (hK : K.Lawful) (a : α) (hs : K.Sound s) : K.Sound (K.put a s) where
  hash {h b} hb := by
    rw [hK.held_put] at hb
    split at hb
    · next hh =>
      cases hb
      exact hh
    · exact hs.hash hb
  seen {h b} hb := by
    rw [hK.mark_put]
    rw [hK.held_put] at hb
    split at hb
    · cases hb
      exact Std.right_le_max
    · exact Std.le_trans (hs.seen hb) Std.left_le_max

theorem Sound.congr {s' : Store} (hs : K.Sound s) (hentries : K.entries s' = K.entries s)
    (hmark : K.mark s' = K.mark s) : K.Sound s' where
  hash h := hs.hash (by rwa [held, hentries] at h)
  seen h := hmark ▸ hs.seen (by rwa [held, hentries] at h)

/-- All entries on the shelf, by content hash. -/
def all (K : Shelf α) (s : Store) : List α := (K.entries s).toList.map (·.2)

theorem Sound.mem_all (hs : K.Sound s) : a ∈ K.all s ↔ K.held s (K.hash a) = some a := by
  simp only [all, List.mem_map, Prod.exists, exists_eq_right,
    Std.ExtTreeMap.mem_toList_iff_getElem?_eq_some]
  constructor
  · rintro ⟨h, ha⟩
    have ha : K.held s h = some a := ha
    rwa [← hs.hash ha] at ha
  · exact fun ha => ⟨_, ha⟩

/-- The entries are held under different hashes. -/
theorem Sound.nodup_all (hs : K.Sound s) : ((K.all s).map K.hash).Nodup := by
  have hkeys : (K.all s).map K.hash = (K.entries s).toList.map Prod.fst := by
    rw [all, List.map_map]
    apply List.map_congr_left
    intro ⟨h, a⟩ ha
    exact hs.hash (Std.ExtTreeMap.mem_toList_iff_getElem?_eq_some.mp ha)
  rw [hkeys, Std.ExtTreeMap.map_fst_toList_eq_keys]
  exact Std.ExtTreeMap.nodup_keys

end Shelf

end Store

end SearchOverlay
