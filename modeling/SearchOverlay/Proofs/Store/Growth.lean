import SearchOverlay.Proofs.Store.Redelivery
import SearchOverlay.Proofs.Store.Reopening
import SearchOverlay.Proofs.Store.Since

/-!
# Stores only grow

A store comes into being empty or is opened, and then changes by inserts and merges. Whatever these
bring, no watermark goes down, no hash is given up, and nothing that is held is above its watermark:
a peer that is not behind a watermark has nothing to pull. Merges replace an entry only by one that
covers it; an insert may put an older record in the place of a newer one.
-/

namespace SearchOverlay.Store

/-- Where a store comes from: it is new, or it was opened. -/
inductive Start : Store → Prop where
  | new : Start empty
  | opened {d : Directory} {s : Store} (h : load d = .ok s) : Start s

theorem Start.reachable {s : Store} (h : Start s) : s.Reachable := by
  cases h with
  | new => exact ⟨[], rfl⟩
  | opened h =>
    obtain ⟨rs, ms, rfl⟩ := exists_of_load h
    exact ⟨[.mergeRecords rs, .mergeMetadata ms], rfl⟩

theorem Reachable.run {s : Store} (h : s.Reachable) (os : List Operation) :
    (s.run os).Reachable := by
  obtain ⟨before, rfl⟩ := h
  exact ⟨before ++ os, List.foldl_append⟩

theorem Reachable.shelved {s : Store} (h : s.Reachable) : s.Shelved := by
  obtain ⟨os, rfl⟩ := h
  exact List.foldlRecOn os _ shelved_empty fun _ hs o _ => hs.apply o

/-- A batch that leaves room for a record brings one if there is a newer one. -/
theorem Shelved.recordsSince_ne_nil {s : Store} {h : ContentHash} {r : Record} {since : Time}
    {max : Nat} (hs : s.Shelved) (hr : s.record? h = some r) (hnewer : since < r.timestamp)
    (hmax : 0 < max) : s.recordsSince since max ≠ [] := by
  obtain rfl := hs.records.hash hr
  have hmem : r ∈ s.newer since := hs.records.mem_newer.mpr ⟨hr, hnewer⟩
  rw [recordsSince_eq, Ne, List.take_eq_nil_iff, not_or]
  exact ⟨Nat.ne_of_gt hmax, List.ne_nil_of_mem hmem⟩

/-! ## Growth -/

namespace Shelf

variable {α β : Type} {K : Shelf α} {L : Shelf β} {s t : Store}

/-- The watermark is not lower, and no hash is given up. -/
structure Grows (K : Shelf α) (s t : Store) : Prop where
  mark : K.mark s ≤ K.mark t
  held : ∀ {h}, (K.held s h).isSome → (K.held t h).isSome

theorem Grows.refl (K : Shelf α) (s : Store) : K.Grows s s := ⟨UInt64.le_refl _, id⟩

theorem Grows.of_eq (hentries : K.entries t = K.entries s) (hmark : K.mark t = K.mark s) :
    K.Grows s t where
  mark := UInt64.le_of_eq hmark.symm
  held h := by rwa [Shelf.held, hentries]

theorem Lawful.grows_put (hK : K.Lawful) (h : K.Grows s t) (a : α) : K.Grows s (K.put a t) where
  mark := by
    rw [hK.mark_put]
    exact UInt64.le_trans h.mark Std.left_le_max
  held {i} hi := by
    rw [hK.held_put]
    split
    · rfl
    · exact h.held hi

theorem Lawful.grows_mergeAll (hK : K.Lawful) (as : List α) (s : Store) :
    K.Grows s (K.mergeAll as s).2 :=
  hK.mergeAll_rec (P := K.Grows s) (.refl K s) (fun _ a h => hK.grows_put h a) as

theorem Apart.grows_mergeAll (h : K.Apart L) (hL : L.Lawful) (bs : List β) (s : Store) :
    K.Grows s (L.mergeAll bs s).2 := by
  obtain ⟨hentries, hmark⟩ := h.mergeAll hL bs s
  exact .of_eq hentries hmark

end Shelf

variable {s : Store} {o : Operation}

theorem grows_records_apply (s : Store) (o : Operation) : Shelf.records.Grows s (o.apply s) := by
  cases o with
  | insert r => exact Shelf.lawful_records.grows_put (.refl _ s) r
  | mergeRecords rs => exact Shelf.lawful_records.grows_mergeAll rs s
  | mergeMetadata ms => exact Shelf.records_apart.grows_mergeAll Shelf.lawful_metadata ms s

theorem grows_metadata_apply (s : Store) (o : Operation) : Shelf.metadata.Grows s (o.apply s) := by
  cases o with
  | insert r => exact .of_eq rfl rfl
  | mergeRecords rs => exact Shelf.metadata_apart.grows_mergeAll Shelf.lawful_records rs s
  | mergeMetadata ms => exact Shelf.lawful_metadata.grows_mergeAll ms s

/-- In the course of a merge, a held record is only replaced by one that is not older. -/
theorem Shelved.record_le_apply {h : ContentHash} {r : Record} (hs : s.Shelved) (ho : o.isMerge)
    (hr : s.record? h = some r) :
    ∃ q, (o.apply s).record? h = some q ∧ r.timestamp ≤ q.timestamp := by
  obtain rfl := hs.records.hash hr
  exact covers_record_apply ho (.inl ⟨r, hr, UInt64.le_refl _⟩)

/-- In the course of a merge, held metadata is only replaced by an entry that is not older and has
no fewer votes. -/
theorem Shelved.metadata_le_apply {h : ContentHash} {m : Metadata} (hs : s.Shelved)
    (ho : o.isMerge) (hm : s.metadata? h = some m) :
    ∃ q, (o.apply s).metadata? h = some q ∧ m.timestamp ≤ q.timestamp ∧ m.votes ≤ q.votes := by
  obtain rfl := hs.metadata.hash hm
  exact covers_metadata_apply ho (.inl ⟨m, hm, UInt64.le_refl _, UInt32.le_refl _⟩)

/-- After any operations on a new or an opened store, every entry is held under its own hash and the
watermarks have seen all of them, so that nothing is newer than a watermark. Every further
operation leaves the watermarks and the held hashes where they are or goes up, and a merge also the
times of all records and the times and votes of all metadata. -/
theorem start_run_grows (h : Start s) (os : List Operation) : let t := s.run os
    (∀ i r, t.record? i = some r → r.hash = i ∧ r.timestamp ≤ t.status.results) ∧
    (∀ i m, t.metadata? i = some m → m.hash = i ∧ m.timestamp ≤ t.status.metadata) ∧
    (∀ max, t.recordsSince t.status.results max = [] ∧
      t.metadataSince t.status.metadata max = []) ∧
    ∀ o : Operation, let u := o.apply t
      t.status.results ≤ u.status.results ∧ t.status.metadata ≤ u.status.metadata ∧
      (∀ i, (t.record? i).isSome → (u.record? i).isSome) ∧
      (∀ i, (t.metadata? i).isSome → (u.metadata? i).isSome) ∧
      (o.isMerge →
        (∀ i r, t.record? i = some r → ∃ q, u.record? i = some q ∧ r.timestamp ≤ q.timestamp) ∧
        ∀ i m, t.metadata? i = some m → ∃ q, u.metadata? i = some q ∧
          m.timestamp ≤ q.timestamp ∧ m.votes ≤ q.votes) := by
  intro t
  have ht : t.Shelved := (h.reachable.run os).shelved
  refine ⟨fun i r hr => ⟨ht.records.hash hr, ht.records.seen hr⟩,
    fun i m hm => ⟨ht.metadata.hash hm, ht.metadata.seen hm⟩, fun max => ⟨?_, ?_⟩, fun o => ?_⟩
  · have hnone : t.newer t.status.results = [] := ht.records.newer_mark
    rw [recordsSince_eq, hnone, List.take_nil]
  · have hnone : Shelf.metadata.newer t.status.metadata t = [] := ht.metadata.newer_mark
    rw [metadataSince_eq, hnone, List.take_nil]
  · have hrecords := grows_records_apply t o
    have hmetadata := grows_metadata_apply t o
    refine ⟨hrecords.mark, hmetadata.mark, fun _ => hrecords.held, fun _ => hmetadata.held, ?_⟩
    exact fun ho => ⟨fun i r => ht.record_le_apply ho, fun i m => ht.metadata_le_apply ho⟩

/-- An opened store whose record an insert replaces by an older one: the watermark stays, and a
merge of the newer record brings it back. -/
theorem start_run_grows_of_opened :
    let r (t : Time) : Record := ⟨.zero, "u", "t", "s", t⟩
    let s := (empty.insert (r 5)).insert (r 10)
    let d := s.save .empty
    let t := (ofEntries s.recordList s.metadataList).run [.insert (r 7)]
    load d = .ok (ofEntries s.recordList s.metadataList) ∧ t.record? .zero = some (r 7) ∧
      t.status.results = 10 ∧ t.recordsSince 10 5 = [] ∧
      ∃ q, (t.mergeRecords [r 9]).2.record? .zero = some q ∧ 7 ≤ q.timestamp := by
  intro r s d t
  have hd : load d = .ok (ofEntries s.recordList s.metadataList) :=
    load_save .empty (by decide +kernel)
  obtain ⟨-, -, hsince, hgrows⟩ := start_run_grows (.opened hd) [.insert (r 7)]
  have hstatus : t.status.results = 10 := by decide +kernel
  have hheld : t.record? .zero = some (r 7) := by decide +kernel
  refine ⟨hd, hheld, hstatus, ?_, ?_⟩
  · rw [← hstatus]
    exact (hsince 5).1
  · exact ((hgrows (.mergeRecords [r 9])).2.2.2.2 rfl).1 _ _ hheld

end SearchOverlay.Store
