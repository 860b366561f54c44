import SearchOverlay.Proofs.Store.Shelf

/-!
# Operations on a store

A store changes by inserts and by merges; one that is restored from a snapshot comes of two
merges. `Sound` is what every such store keeps of its records: each is held under its own hash,
and the watermark has seen all of them.
-/

namespace SearchOverlay.Store

/-- What is done to a store. -/
inductive Operation where
  | insert (r : Record)
  | mergeRecords (rs : List Record)
  | mergeMetadata (ms : List Metadata)

def Operation.apply : Operation → Store → Store
  | insert r, s => s.insert r
  | mergeRecords rs, s => (s.mergeRecords rs).2
  | mergeMetadata ms, s => (s.mergeMetadata ms).2

/-- Applies operations one after the other. -/
def run (os : List Operation) (s : Store) : Store := os.foldl (fun s o => o.apply s) s

/-- What operations make of an empty store. -/
def Reachable (s : Store) : Prop := ∃ os, empty.run os = s

/-! ## Inserts -/

@[simp] theorem record?_empty (h : ContentHash) : empty.record? h = none := rfl

theorem record?_insert (r : Record) (s : Store) (h : ContentHash) :
    (s.insert r).record? h = if r.hash = h then some r else s.record? h :=
  Shelf.lawful_records.held_put r s h

theorem eq_or_held_of_record?_insert {s : Store} {r q : Record} {h : ContentHash}
    (hr : (s.insert q).record? h = some r) : r = q ∨ s.record? h = some r := by
  rw [record?_insert] at hr
  split at hr
  · exact .inl (Option.some.inj hr).symm
  · exact .inr hr

theorem results_insert (r : Record) (s : Store) : (s.insert r).status.results =
    if s.status.results ≤ r.timestamp then r.timestamp else s.status.results := rfl

theorem results_le_insert (r : Record) (s : Store) :
    s.status.results ≤ (s.insert r).status.results := Std.left_le_max

theorem results_insert_le_iff {s : Store} {r : Record} {t : Time} :
    (s.insert r).status.results ≤ t ↔ s.status.results ≤ t ∧ r.timestamp ≤ t :=
  Std.LawfulOrderSup.max_le_iff ..

/-! ## Soundness -/

structure Sound (s : Store) : Prop where
  hash : ∀ {h r}, s.record? h = some r → r.hash = h
  seen : ∀ {h r}, s.record? h = some r → r.timestamp ≤ s.status.results

theorem sound_iff {s : Store} : s.Sound ↔ Shelf.records.Sound s :=
  ⟨fun h => ⟨h.hash, h.seen⟩, fun h => ⟨h.hash, h.seen⟩⟩

theorem sound_empty : empty.Sound := sound_iff.mpr Shelf.lawful_records.sound_empty

theorem Sound.insert {s : Store} (hs : s.Sound) (r : Record) : (s.insert r).Sound :=
  sound_iff.mpr (Shelf.lawful_records.sound_put r (sound_iff.mp hs))

theorem Sound.mergeRecords {s : Store} (hs : s.Sound) (rs : List Record) :
    (s.mergeRecords rs).2.Sound :=
  Shelf.lawful_records.mergeAll_rec hs (fun _ r hs => hs.insert r) rs

theorem Sound.mergeMetadata {s : Store} (hs : s.Sound) (ms : List Metadata) :
    (s.mergeMetadata ms).2.Sound := by
  obtain ⟨hentries, hmark⟩ := Shelf.records_apart.mergeAll Shelf.lawful_metadata ms s
  exact sound_iff.mpr ((sound_iff.mp hs).congr hentries hmark)

theorem Sound.apply {s : Store} (hs : s.Sound) (o : Operation) : (o.apply s).Sound := by
  cases o with
  | insert r => exact hs.insert r
  | mergeRecords rs => exact hs.mergeRecords rs
  | mergeMetadata ms => exact hs.mergeMetadata ms

theorem Reachable.sound {s : Store} (h : s.Reachable) : s.Sound := by
  obtain ⟨os, rfl⟩ := h
  exact List.foldlRecOn os _ sound_empty fun s hs o _ => hs.apply o

end SearchOverlay.Store
