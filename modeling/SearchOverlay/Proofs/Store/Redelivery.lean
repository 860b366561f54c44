import SearchOverlay.Proofs.Store.Operations

/-!
# Redelivery

An entry that was merged is covered from then on: the held entry of its hash is only ever replaced
by one that covers it in turn. So a list of such entries, whatever its order and wherever they came
from, changes nothing when it is delivered again.
-/

namespace SearchOverlay.Store

namespace Shelf

variable {α β : Type} {K : Shelf α} {L : Shelf β} {s s' : Store} {a b : α} {as : List α}
  {changed : Bool}

/-! ## Entries that are covered -/

theorem Lawful.covers_put (hK : K.Lawful)
    (hreplaces : ∀ old, K.held s (K.hash a) = some old → K.within old a) (h : K.Covers s b) :
    K.Covers (K.put a s) b := by
  obtain ⟨old, hold, hwithin⟩ := h
  by_cases hhash : K.hash a = K.hash b
  · refine ⟨a, by rw [hK.held_put, if_pos hhash], ?_⟩
    exact hK.trans hwithin (hreplaces old (hhash ▸ hold))
  · exact ⟨old, by rw [hK.held_put, if_neg hhash, hold], hwithin⟩

/-- What was covered is covered after a merge, and so is what was merged. -/
theorem MergeStep.covers (h : K.MergeStep a s changed s') (hK : K.Lawful)
    (hb : K.Covers s b ∨ b = a) : K.Covers s' b := by
  cases h with
  | known covered =>
    rcases hb with hb | rfl
    · exact hb
    · exact covered
  | @taken new news hash within replaces first =>
    rcases hb with hb | rfl
    · exact hK.covers_put (fun old hold => replaces old (hash ▸ hold)) hb
    · exact ⟨new, by rw [hK.held_put, if_pos hash], within⟩

theorem Lawful.covers_mergeAll (hK : K.Lawful) (hb : K.Covers s b ∨ b ∈ as) :
    K.Covers (K.mergeAll as s).2 b := by
  induction as generalizing s with
  | nil => exact hb.resolve_right List.not_mem_nil
  | cons a as ih =>
    have hstep := hK.step a s
    rw [mergeAll_cons]
    apply ih
    rcases hb with hb | hb
    · exact .inl (hstep.covers hK (.inl hb))
    · rcases List.mem_cons.mp hb with rfl | hb
      · exact .inl (hstep.covers hK (.inr rfl))
      · exact .inr hb

theorem Apart.covers_mergeAll (h : K.Apart L) (hL : L.Lawful) (bs : List β)
    (ha : K.Covers s a) : K.Covers (L.mergeAll bs s).2 a := by
  obtain ⟨old, hold, hwithin⟩ := ha
  exact ⟨old, by rw [held, (h.mergeAll hL bs s).1, ← hold, held], hwithin⟩

theorem Lawful.merge_of_covers (hK : K.Lawful) (h : K.Covers s a) : K.merge a s = (false, s) := by
  have hstep := hK.step a s
  generalize K.merge a s = r at hstep
  obtain ⟨changed, s'⟩ := r
  cases hstep with
  | known => rfl
  | taken news => exact absurd h news

theorem Lawful.mergeAll_of_covers (hK : K.Lawful) (h : ∀ a ∈ as, K.Covers s a) :
    K.mergeAll as s = (0, s) := by
  induction as with
  | nil => rfl
  | cons a as ih =>
    obtain ⟨ha, has⟩ := List.forall_mem_cons.mp h
    rw [mergeAll, mergeEach_cons, hK.merge_of_covers ha]
    simp only [Bool.false_eq_true, if_false, Nat.zero_add]
    exact ih has

end Shelf

/-! ## Deliveries -/

namespace Operation

def isMerge : Operation → Bool
  | insert _ => false
  | _ => true

def records : Operation → List Record
  | mergeRecords rs => rs
  | _ => []

def metadata : Operation → List Metadata
  | mergeMetadata ms => ms
  | _ => []

end Operation

variable {s : Store} {o : Operation} {os : List Operation}

theorem covers_record_apply {r : Record} (ho : o.isMerge)
    (h : Shelf.records.Covers s r ∨ r ∈ o.records) : Shelf.records.Covers (o.apply s) r := by
  cases o with
  | insert q => cases ho
  | mergeRecords rs => exact Shelf.lawful_records.covers_mergeAll h
  | mergeMetadata ms =>
    exact Shelf.records_apart.covers_mergeAll Shelf.lawful_metadata ms
      (h.resolve_right List.not_mem_nil)

theorem covers_metadata_apply {m : Metadata} (ho : o.isMerge)
    (h : Shelf.metadata.Covers s m ∨ m ∈ o.metadata) : Shelf.metadata.Covers (o.apply s) m := by
  cases o with
  | insert q => cases ho
  | mergeRecords rs =>
    exact Shelf.metadata_apart.covers_mergeAll Shelf.lawful_records rs
      (h.resolve_right List.not_mem_nil)
  | mergeMetadata ms => exact Shelf.lawful_metadata.covers_mergeAll h

theorem covers_run {α : Type} {K : Shelf α} {batch : Operation → List α} {a : α}
    (hstep : ∀ {o s}, o.isMerge → K.Covers s a ∨ a ∈ batch o → K.Covers (o.apply s) a)
    (hos : ∀ o ∈ os, o.isMerge) (h : K.Covers s a ∨ a ∈ os.flatMap batch) :
    K.Covers (s.run os) a := by
  induction os generalizing s with
  | nil => exact h.resolve_right List.not_mem_nil
  | cons o os ih =>
    obtain ⟨ho, hos⟩ := List.forall_mem_cons.mp hos
    rw [List.flatMap_cons, List.mem_append, ← or_assoc] at h
    exact ih hos (h.imp_left (hstep ho))

/-- After any merges, a list of records that were delivered in them changes nothing when it is
delivered again, and neither does such a list of metadata. -/
theorem redelivered_unchanged (s : Store) (os : List Operation) (hos : ∀ o ∈ os, o.isMerge) :
    (∀ rs ⊆ os.flatMap Operation.records, (s.run os).mergeRecords rs = (0, s.run os)) ∧
      ∀ ms ⊆ os.flatMap Operation.metadata, (s.run os).mergeMetadata ms = (0, s.run os) := by
  constructor
  · intro rs hrs
    apply Shelf.lawful_records.mergeAll_of_covers
    exact fun r hr => covers_run covers_record_apply hos (.inr (hrs hr))
  · intro ms hms
    apply Shelf.lawful_metadata.mergeAll_of_covers
    exact fun m hm => covers_run covers_metadata_apply hos (.inr (hms hm))

/-- Two entries of one page, the first with more votes and the second newer, around a record that
comes twice. -/
theorem redelivered_unchanged_of_two :
    let r : Record := ⟨.zero, "u", "t", "s", 5⟩
    let m : Metadata := ⟨.zero, ⟨0x3F800000⟩, 9, 10⟩
    let q : Metadata := ⟨.zero, ⟨0x40400000⟩, 2, 20⟩
    let s := empty.run [.mergeMetadata [m], .mergeRecords [r], .mergeMetadata [q, m]]
    s.mergeRecords [r, r] = (0, s) ∧ s.mergeMetadata [m, q, m] = (0, s) := by
  intro r m q s
  obtain ⟨hrecords, hmetadata⟩ := redelivered_unchanged empty
    [.mergeMetadata [m], .mergeRecords [r], .mergeMetadata [q, m]] (by decide)
  exact ⟨hrecords [r, r] (by simp [Operation.records]),
    hmetadata [m, q, m] (by simp [Operation.metadata])⟩

end SearchOverlay.Store
