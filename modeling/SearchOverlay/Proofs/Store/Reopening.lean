import Mathlib.Data.List.Induction
import SearchOverlay.Store.Snapshot
import SearchOverlay.Proofs.Store.Operations
import SearchOverlay.Proofs.Wire.RoundTrip

/-!
# Reopening a store

A snapshot holds the entries of a store and not its watermarks, which are those of the entries
once it is read again. So a watermark comes back if and only if a held entry attains it. Merges
see to that on both shelves; an insert does not where it puts a record in the place of a newer one.
-/

namespace SearchOverlay

open Wire

namespace Store

namespace Shelf

variable {α β : Type} {K : Shelf α} {L : Shelf β} {s s' : Store} {a : α} {as : List α}
  {changed : Bool}

/-! ## Watermarks that are attained -/

/-- A held entry attains the watermark, unless that is zero. -/
def Attained (K : Shelf α) (s : Store) : Prop :=
  K.mark s = 0 ∨ ∃ h a, K.held s h = some a ∧ K.time a = K.mark s

theorem Attained.congr (h : K.Attained s) (hentries : K.entries s' = K.entries s)
    (hmark : K.mark s' = K.mark s) : K.Attained s' := by
  simpa only [Attained, held, hentries, hmark] using h

theorem Lawful.attained_put (hK : K.Lawful) (hs : K.Attained s)
    (hnewer : ∀ old, K.held s (K.hash a) = some old → K.time old ≤ K.time a) :
    K.Attained (K.put a s) := by
  rcases Std.MaxEqOr.max_eq_or (K.mark s) (K.time a) with hmark | hmark
  · rcases hs with hzero | ⟨h, b, hb, htime⟩
    · exact .inl (by rw [hK.mark_put, hmark, hzero])
    · right
      by_cases hh : K.hash a = h
      · -- the entry that attained the watermark is replaced by one that does
        refine ⟨h, a, by rw [hK.held_put, if_pos hh], ?_⟩
        have hle : K.mark s ≤ K.time a := htime ▸ hnewer b (hh ▸ hb)
        rw [hK.mark_put, hmark]
        exact Std.le_antisymm (Std.max_le_iff.mp (Std.le_of_eq hmark)).2 hle
      · exact ⟨h, b, by rw [hK.held_put, if_neg hh, hb], by rw [hK.mark_put, hmark, htime]⟩
  · exact .inr ⟨K.hash a, a, by rw [hK.held_put, if_pos rfl], by rw [hK.mark_put, hmark]⟩

theorem MergeStep.attained (h : K.MergeStep a s changed s') (hK : K.Lawful) (hs : K.Attained s) :
    K.Attained s' := by
  cases h with
  | known => exact hs
  | taken news hash within replaces =>
    exact hK.attained_put hs fun old hold => hK.time_le (replaces old (hash ▸ hold))

theorem Lawful.attained_mergeAll (hK : K.Lawful) (hs : K.Attained s) (as : List α) :
    K.Attained (K.mergeAll as s).2 := by
  rw [mergeEach_snd]
  exact List.foldlRecOn as _ hs fun s hs a _ => (hK.step a s).attained hK hs

/-- Of two stores with the same entries, the one whose watermark is attained has the lower one. -/
theorem Sound.mark_le (hs : K.Sound s) (hheld : ∀ h, K.held s' h = K.held s h)
    (hs' : K.Attained s') : K.mark s' ≤ K.mark s := by
  rcases hs' with hzero | ⟨h, a, ha, htime⟩
  · rw [hzero]
    exact UInt64.zero_le
  · rw [← htime]
    exact hs.seen (hheld h ▸ ha)

theorem Sound.mark_eq_iff (hs : K.Sound s) (hheld : ∀ h, K.held s' h = K.held s h)
    (hsound : K.Sound s') (hs' : K.Attained s') : K.mark s' = K.mark s ↔ K.Attained s := by
  constructor
  · intro hmark
    simpa only [Attained, hmark, hheld] using hs'
  · intro hatt
    refine Std.le_antisymm (hs.mark_le hheld hs') ?_
    rcases hatt with hzero | ⟨h, a, ha, htime⟩
    · rw [hzero]
      exact UInt64.zero_le
    · rw [← htime]
      exact hsound.seen ((hheld h).trans ha)

/-- Entries that are merged, in whatever order, where nothing is held are held as before. -/
theorem Lawful.held_rebuilt (hK : K.Lawful) (hs : K.Sound s) (hperm : as.Perm (K.all s))
    (hnone : ∀ h, K.held s' h = none) (h : ContentHash) :
    K.held (K.mergeAll as s').2 h = K.held s h := by
  have hnodup : (as.map K.hash).Nodup := (hperm.map _).nodup_iff.mpr hs.nodup_all
  rw [hK.mergeAll_of_new hnodup fun _ _ => hnone _]
  cases hheld : K.held s h with
  | none =>
    refine (hK.held_putAll_of_not_mem fun hh => ?_).trans (hnone h)
    obtain ⟨a, ha, rfl⟩ := List.mem_map.mp hh
    cases hheld.symm.trans (hs.mem_all.mp (hperm.mem_iff.mp ha))
  | some a =>
    obtain rfl := hs.hash hheld
    exact hK.held_putAll_of_mem hnodup (hperm.mem_iff.mpr (hs.mem_all.mpr hheld))

theorem Lawful.attained_empty (hK : K.Lawful) : K.Attained empty := .inl hK.mark_empty

end Shelf

open Store.Shelf

variable {s s' : Store} {o : Operation} {rs : List Record} {ms : List Metadata} {d : Directory}

/-! ## What every store keeps -/

/-- A store is what it holds and its watermarks. -/
theorem ext (hrecords : ∀ h, s.record? h = s'.record? h)
    (hmetadata : ∀ h, s.metadata? h = s'.metadata? h)
    (hresults : s.status.results = s'.status.results)
    (hstatus : s.status.metadata = s'.status.metadata) : s = s' := by
  obtain ⟨rs, ms, t, u⟩ := s
  obtain ⟨rs', ms', t', u'⟩ := s'
  obtain rfl : rs = rs' := Std.ExtTreeMap.ext_getElem? hrecords
  obtain rfl : ms = ms' := Std.ExtTreeMap.ext_getElem? hmetadata
  obtain rfl : t = t' := hresults
  obtain rfl : u = u' := hstatus
  rfl

/-- Both shelves are sound, and the watermark of the metadata is attained. -/
structure Shelved (s : Store) : Prop where
  records : Shelf.records.Sound s
  metadata : Shelf.metadata.Sound s
  attained : Shelf.metadata.Attained s

theorem shelved_empty : Shelved empty :=
  ⟨lawful_records.sound_empty, lawful_metadata.sound_empty, lawful_metadata.attained_empty⟩

theorem Shelved.insert (h : s.Shelved) (r : Record) : (s.insert r).Shelved where
  records := lawful_records.sound_put r h.records
  metadata := h.metadata.congr rfl rfl
  attained := h.attained.congr rfl rfl

theorem Shelved.mergeRecords (h : s.Shelved) (rs : List Record) :
    (s.mergeRecords rs).2.Shelved := by
  obtain ⟨hentries, hmark⟩ := metadata_apart.mergeAll lawful_records rs s
  refine ⟨?_, h.metadata.congr hentries hmark, h.attained.congr hentries hmark⟩
  exact lawful_records.mergeAll_rec h.records (fun s r hs => lawful_records.sound_put r hs) rs

theorem Shelved.mergeMetadata (h : s.Shelved) (ms : List Metadata) :
    (s.mergeMetadata ms).2.Shelved := by
  obtain ⟨hentries, hmark⟩ := records_apart.mergeAll lawful_metadata ms s
  refine ⟨h.records.congr hentries hmark, ?_, lawful_metadata.attained_mergeAll h.attained ms⟩
  exact lawful_metadata.mergeAll_rec h.metadata (fun s m hs => lawful_metadata.sound_put m hs) ms

theorem Shelved.apply (h : s.Shelved) (o : Operation) : (o.apply s).Shelved := by
  cases o with
  | insert r => exact h.insert r
  | mergeRecords rs => exact h.mergeRecords rs
  | mergeMetadata ms => exact h.mergeMetadata ms

/-! ## Stores made of entries -/

theorem shelved_ofEntries (rs : List Record) (ms : List Metadata) : (ofEntries rs ms).Shelved :=
  (shelved_empty.mergeRecords rs).mergeMetadata ms

theorem attained_ofEntries (rs : List Record) (ms : List Metadata) :
    Shelf.records.Attained (ofEntries rs ms) := by
  obtain ⟨hentries, hmark⟩ := records_apart.mergeAll lawful_metadata ms (empty.mergeRecords rs).2
  exact (lawful_records.attained_mergeAll lawful_records.attained_empty rs).congr hentries hmark

/-- A store that is loaded is made of entries. -/
theorem exists_of_load (h : load d = .ok s) : ∃ rs ms, s = ofEntries rs ms := by
  unfold load restore at h
  split at h
  · split at h
    · next b _ =>
      cases h
      exact ⟨b.records, b.metadata, rfl⟩
    · cases h
  · cases h
    exact ⟨[], [], rfl⟩

theorem Shelved.record?_ofEntries (hs : s.Shelved) (hrs : rs.Perm s.recordList)
    (ms : List Metadata) (h : ContentHash) : (ofEntries rs ms).record? h = s.record? h := by
  obtain ⟨hentries, -⟩ := records_apart.mergeAll lawful_metadata ms (empty.mergeRecords rs).2
  calc (ofEntries rs ms).record? h
    _ = (empty.mergeRecords rs).2.record? h := congrArg (·[h]?) hentries
    _ = s.record? h := lawful_records.held_rebuilt hs.records hrs lawful_records.held_empty h

theorem Shelved.metadata?_ofEntries (hs : s.Shelved) (rs : List Record)
    (hms : ms.Perm s.metadataList) (h : ContentHash) :
    (ofEntries rs ms).metadata? h = s.metadata? h := by
  obtain ⟨hentries, -⟩ := metadata_apart.mergeAll lawful_records rs empty
  refine lawful_metadata.held_rebuilt hs.metadata hms (fun h => ?_) h
  exact (congrArg (·[h]?) hentries).trans (lawful_metadata.held_empty h)

/-- The order in which a snapshot lists the entries of a store makes no difference. -/
theorem Shelved.ofEntries_of_perm (hs : s.Shelved) (hrs : rs.Perm s.recordList)
    (hms : ms.Perm s.metadataList) :
    ofEntries rs ms = ofEntries s.recordList s.metadataList := by
  have hsame := shelved_ofEntries s.recordList s.metadataList
  have hother := shelved_ofEntries rs ms
  have hrecords (h : ContentHash) : (ofEntries rs ms).record? h =
      (ofEntries s.recordList s.metadataList).record? h := by
    rw [hs.record?_ofEntries hrs, hs.record?_ofEntries (.refl _)]
  have hmetadata (h : ContentHash) : (ofEntries rs ms).metadata? h =
      (ofEntries s.recordList s.metadataList).metadata? h := by
    rw [hs.metadata?_ofEntries _ hms, hs.metadata?_ofEntries _ (.refl _)]
  have hresults := (hsame.records.mark_eq_iff hrecords hother.records
    (attained_ofEntries rs ms)).mpr (attained_ofEntries ..)
  have hstatus := (hsame.metadata.mark_eq_iff hmetadata hother.metadata hother.attained).mpr
    hsame.attained
  exact ext hrecords hmetadata hresults hstatus

/-! ## Snapshots -/

instance : Lawful Snapshot where
  accepts := by
    refine (Accepts.field fun rs => Accepts.last fun ms => Snapshot.mk rs ms).congr fun s w _ => ?_
    constructor
    · rintro ⟨rs, _, ⟨ms, rfl, rfl⟩, rfl⟩
      rfl
    · rintro rfl
      exact ⟨s.records, _, ⟨s.metadata, rfl, rfl⟩, rfl⟩

theorem restore_write {b : Snapshot} (h : (write b).length < UInt64.size) :
    restore (write b) = .ok (ofEntries b.records b.metadata) := by
  have hread : (read : Reader Snapshot) (write b) = .ok (b, []) :=
    (Lawful.accepts _ h b []).mpr ⟨write b, rfl, (List.append_nil _).symm⟩
  simp only [restore, decodeFront, hread]

theorem load_save (d : Directory) (h : (write s.snapshot).length < UInt64.size) :
    load (s.save d) = .ok (ofEntries s.recordList s.metadataList) := by
  unfold load save
  rw [Directory.read?_replace_self]
  exact restore_write h

/-! ## A store and its directory -/

/-- A store and the directory that its snapshots go to. -/
structure Kept where
  store : Store
  files : Directory

namespace Kept

inductive Operation where
  | change (o : Store.Operation)
  | flush
  | close

/-- The store that a directory opens to. -/
def opened (d : Directory) : Except Wire.Fault Kept :=
  match load d with
  | .ok s => .ok ⟨s, d⟩
  | .error e => .error e

def flush (k : Kept) : Kept := ⟨k.store, k.store.save k.files⟩

def Operation.apply : Operation → Kept → Kept
  | change o, k => ⟨o.apply k.store, k.files⟩
  | flush, k => k.flush
  | close, k => k.flush

/-- Applies operations one after the other. -/
def run (os : List Operation) (k : Kept) : Kept := os.foldl (fun k o => o.apply k) k

/-- No insert puts a record in the place of a newer one. -/
def InOrder (k : Kept) (os : List Operation) : Prop :=
  ∀ p r, p ++ [.change (.insert r)] <+: os →
    ∀ old, (k.run p).store.record? r.hash = some old → old.timestamp ≤ r.timestamp

variable {k : Kept} {os : List Operation} {o : Operation}

theorem exists_of_opened (h : opened d = .ok k) : ∃ rs ms, k.store = ofEntries rs ms := by
  unfold opened at h
  split at h
  · next s hs =>
    cases h
    exact exists_of_load hs
  · cases h

/-- A store that was saved is made anew of its entries. -/
theorem opened_flush (h : (write k.store.snapshot).length < UInt64.size) :
    opened k.flush.files =
      .ok ⟨ofEntries k.store.recordList k.store.metadataList, k.flush.files⟩ := by
  simp only [opened, flush, load_save _ h]

theorem run_concat (k : Kept) (os : List Operation) (o : Operation) :
    k.run (os ++ [o]) = o.apply (k.run os) := by
  simp only [run, List.foldl_append, List.foldl_cons, List.foldl_nil]

theorem shelved_apply (h : k.store.Shelved) (o : Operation) : (o.apply k).store.Shelved := by
  cases o with
  | change o => exact h.apply o
  | flush => exact h
  | close => exact h

theorem shelved_run (h : k.store.Shelved) (os : List Operation) : (k.run os).store.Shelved := by
  induction os generalizing k with
  | nil => exact h
  | cons o os ih => exact ih (shelved_apply h o)

theorem attained_apply (h : Shelf.records.Attained k.store)
    (ho : ∀ r, o = .change (.insert r) → ∀ old, k.store.record? r.hash = some old →
      old.timestamp ≤ r.timestamp) : Shelf.records.Attained (o.apply k).store := by
  cases o with
  | flush => exact h
  | close => exact h
  | change o =>
    cases o with
    | insert r => exact lawful_records.attained_put h (ho r rfl)
    | mergeRecords rs => exact lawful_records.attained_mergeAll h rs
    | mergeMetadata ms =>
      obtain ⟨hentries, hmark⟩ := records_apart.mergeAll lawful_metadata ms k.store
      exact h.congr hentries hmark

theorem attained_run (h : Shelf.records.Attained k.store) (hos : k.InOrder os) :
    Shelf.records.Attained (k.run os).store := by
  induction os using List.reverseRecOn with
  | nil => exact h
  | append_singleton os o ih =>
    rw [run_concat]
    refine attained_apply (ih fun p r hp => hos p r (hp.trans (List.prefix_append ..))) ?_
    rintro r rfl
    exact hos os r (List.prefix_refl _)

/-- A store that is saved and opened again holds the same entries. The watermark of its metadata
comes back, and that of its records does if and only if a held record attains it, which is so
where no insert put a record in the place of a newer one. -/
theorem reopened_iff (hk : opened d = .ok k) (os : List Operation)
    (hsize : (write (k.run os).store.snapshot).length < UInt64.size) :
    let s := (k.run os).store
    ∃ k', opened (k.run os).flush.files = .ok k' ∧
      (∀ h, k'.store.record? h = s.record? h) ∧ (∀ h, k'.store.metadata? h = s.metadata? h) ∧
      k'.store.status.metadata = s.status.metadata ∧
      k'.store.status.results ≤ s.status.results ∧
      (k'.store.status.results = s.status.results ↔ s.status.results = 0 ∨
        ∃ h r, s.record? h = some r ∧ r.timestamp = s.status.results) ∧
      (k.InOrder os → k'.store.status.results = s.status.results) := by
  intro s
  obtain ⟨rs, ms, hstore⟩ := exists_of_opened hk
  have hs : s.Shelved := shelved_run (hstore ▸ shelved_ofEntries rs ms) os
  have hnew := shelved_ofEntries s.recordList s.metadataList
  have hrecords := hs.record?_ofEntries (.refl _) s.metadataList
  have hmetadata := hs.metadata?_ofEntries s.recordList (.refl _)
  have hatt := attained_ofEntries s.recordList s.metadataList
  have hiff := hs.records.mark_eq_iff hrecords hnew.records hatt
  refine ⟨_, opened_flush hsize, hrecords, hmetadata, ?_, ?_, hiff, fun hos => ?_⟩
  · exact (hs.metadata.mark_eq_iff hmetadata hnew.metadata hnew.attained).mpr hs.attained
  · exact hs.records.mark_le hrecords hatt
  · exact hiff.mpr (attained_run (hstore ▸ attained_ofEntries rs ms) hos)

/-- A record, metadata of its page, and a newer record that replaces the first one. -/
theorem reopened_iff_of_newer :
    let r (t : Time) : Record := ⟨.zero, "u", "t", "s", t⟩
    let m : Metadata := ⟨.zero, ⟨0x3F800000⟩, 9, 20⟩
    let k := run [.change (.insert (r 5)), .flush, .change (.mergeMetadata [m]),
      .change (.insert (r 10)), .close] ⟨empty, .empty⟩
    ∃ k', opened k.flush.files = .ok k' ∧ k'.store.record? .zero = some (r 10) ∧
      k'.store.metadata? .zero = some m ∧ k'.store.status = ⟨10, 20⟩ := by
  intro r m k
  have hheld : k.store.record? .zero = some (r 10) := by decide +kernel
  have hmetadata : k.store.metadata? .zero = some m := by decide +kernel
  have hstatus : k.store.status = ⟨10, 20⟩ := by decide +kernel
  obtain ⟨k', hk', hrecords', hmetadata', hmark, -, hresults, -⟩ :=
    reopened_iff (d := .empty) (k := ⟨empty, .empty⟩) rfl
      [.change (.insert (r 5)), .flush, .change (.mergeMetadata [m]), .change (.insert (r 10)),
        .close] (by decide +kernel)
  have hresults := hresults.mpr (.inr ⟨.zero, r 10, hheld, by rw [hstatus]⟩)
  refine ⟨k', hk', (hrecords' _).trans hheld, (hmetadata' _).trans hmetadata, ?_⟩
  rw [hstatus] at hmark hresults
  exact congrArg₂ SyncStatus.mk hresults hmark

/-- A record that an older one of its page replaces: opened again, the store has a lower
watermark than it had. -/
theorem overwriting_lowers_watermark :
    let r (t : Time) : Record := ⟨.zero, "u", "t", "s", t⟩
    let k := run [.change (.insert (r 10)), .change (.insert (r 5))] ⟨empty, .empty⟩
    opened .empty = .ok ⟨empty, .empty⟩ ∧ k.store.status = ⟨10, 0⟩ ∧
      ∃ k', opened k.flush.files = .ok k' ∧ k'.store.status = ⟨5, 0⟩ := by
  intro r k
  refine ⟨rfl, by decide +kernel, ?_⟩
  have hsize : (write k.store.snapshot).length < UInt64.size := by decide +kernel
  exact ⟨_, opened_flush hsize, by decide +kernel⟩

end Kept

end Store

end SearchOverlay
