import SearchOverlay.Proofs.Store.Growth

/-!
# Which changes a pull shows

A peer that has caught up with a store asks for what is newer than the watermark that the store had
then. A watermark is a time, not a place in a history: a change shows if and only if the changed
entry is newer than the watermark was. A record that comes late, or metadata that gains nothing but
votes, is taken up without being shown to anybody who had caught up.
-/

namespace SearchOverlay.Store

namespace Shelf

variable {α : Type} {K : Shelf α} {s : Store} {since : Time} {a : α}

/-- The entry is in every pull that is long enough. -/
theorem Sound.offered_iff (hs : K.Sound s) (ha : K.held s (K.hash a) = some a) :
    (∃ n, ∀ max, n ≤ max → a ∈ (K.newer since s).take max) ↔ since < K.time a := by
  constructor
  · rintro ⟨n, hn⟩
    exact (hs.mem_newer.mp (List.mem_of_mem_take (hn n (Nat.le_refl n)))).2
  · intro hnewer
    refine ⟨(K.newer since s).length, fun max hmax => ?_⟩
    rw [List.take_of_length_le hmax]
    exact hs.mem_newer.mpr ⟨ha, hnewer⟩

theorem Sound.not_offered (hs : K.Sound s) (h : K.time a ≤ since) (max : Nat) :
    a ∉ (K.newer since s).take max := fun ha =>
  UInt64.not_lt.mpr h (hs.mem_newer.mp (List.mem_of_mem_take ha)).2

end Shelf

variable {s p t : Store} {r q : Record} {m : Metadata} {rs : List Record} {ms : List Metadata}
  {h : ContentHash}

/-! ## Where held entries come from -/

theorem mergeRecord_snd (r : Record) (s : Store) :
    (s.mergeRecord r).2 = s ∨ (s.mergeRecord r).2 = s.insert r := by
  unfold mergeRecord
  split
  · split
    · exact .inl rfl
    · exact .inr rfl
  · exact .inr rfl

/-- After a merge, a record was among those merged or was held before. -/
theorem mem_or_held_of_record?_mergeRecords (hr : (s.mergeRecords rs).2.record? h = some r) :
    r ∈ rs ∨ s.record? h = some r := by
  induction rs generalizing s with
  | nil => exact .inr hr
  | cons q rs ih =>
    rw [mergeRecords, mergeEach_snd, List.foldl_cons, ← mergeEach_snd] at hr
    rcases ih hr with hr | hr
    · exact .inl (List.mem_cons_of_mem _ hr)
    · rcases mergeRecord_snd q s with hsame | hinsert
      · exact .inr (hsame ▸ hr)
      · rcases eq_or_held_of_record?_insert (hinsert ▸ hr) with rfl | hr
        · exact .inl List.mem_cons_self
        · exact .inr hr

theorem metadata?_insertMetadata (m : Metadata) (s : Store) (h : ContentHash) :
    (s.insertMetadata m).metadata? h = if m.hash = h then some m else s.metadata? h :=
  Shelf.lawful_metadata.held_put m s h

/-- The time is that of an entry that was merged for the hash, or held under it before. -/
def Times (s : Store) (ms : List Metadata) (h : ContentHash) (t : Time) : Prop :=
  (∃ m ∈ ms, m.hash = h ∧ m.timestamp = t) ∨ ∃ m, s.metadata? h = some m ∧ m.timestamp = t

theorem times_mergeMetadatum {b : Metadata} (hb : (s.mergeMetadatum m).2.metadata? h = some b) :
    s.Times [m] h b.timestamp := by
  have hheld (hb : s.metadata? h = some b) : s.Times [m] h b.timestamp := .inr ⟨b, hb, rfl⟩
  unfold mergeMetadatum at hb
  split at hb
  · next old hold =>
    split at hb
    · exact hheld hb
    · rw [metadata?_insertMetadata] at hb
      split at hb
      · next hh =>
        cases hb
        rcases Std.MaxEqOr.max_eq_or old.timestamp m.timestamp with htime | htime
        · exact .inr ⟨old, hh ▸ hold, htime.symm⟩
        · exact .inl ⟨m, List.mem_singleton_self m, hh, htime.symm⟩
      · exact hheld hb
  · rw [metadata?_insertMetadata] at hb
    split at hb
    · next hh =>
      cases hb
      exact .inl ⟨m, List.mem_singleton_self m, hh, rfl⟩
    · exact hheld hb

theorem times_mergeMetadata {b : Metadata} (hb : (s.mergeMetadata ms).2.metadata? h = some b) :
    s.Times ms h b.timestamp := by
  induction ms generalizing s with
  | nil => exact .inr ⟨b, hb, rfl⟩
  | cons m ms ih =>
    rw [mergeMetadata, mergeEach_snd, List.foldl_cons, ← mergeEach_snd] at hb
    rcases ih hb with ⟨q, hq, htime⟩ | ⟨q, hq, htime⟩
    · exact .inl ⟨q, List.mem_cons_of_mem _ hq, htime⟩
    · rw [← htime]
      rcases times_mergeMetadatum hq with ⟨m', hm', h'⟩ | hheld
      · exact .inl ⟨m', List.mem_cons.mpr (.inl (List.mem_singleton.mp hm')), h'⟩
      · exact .inr hheld

/-! ## Changes -/

def Operation.brought : Operation → List Record
  | insert r => [r]
  | mergeRecords rs => rs
  | mergeMetadata _ => []

variable {o : Operation}

theorem mem_brought_of_change (hr : (o.apply s).record? h = some r) (hs : s.record? h ≠ some r) :
    r ∈ o.brought := by
  cases o with
  | insert q =>
    exact List.mem_singleton.mpr ((eq_or_held_of_record?_insert hr).resolve_right hs)
  | mergeRecords rs => exact (mem_or_held_of_record?_mergeRecords hr).resolve_right hs
  | mergeMetadata ms =>
    have hentries := (Shelf.records_apart.mergeAll Shelf.lawful_metadata ms s).1
    exact absurd ((congrArg (·[h]?) hentries).symm.trans hr) hs

/-- Metadata that changes is newer than the watermark if and only if some entry that was merged for
its page is. -/
theorem Shelved.newer_change_iff (hs : s.Shelved) (hm : (o.apply s).metadata? h = some m)
    (hchange : s.metadata? h ≠ some m) : s.status.metadata < m.timestamp ↔
      ∃ q ∈ o.metadata, q.hash = h ∧ s.status.metadata < q.timestamp := by
  cases o with
  | insert r => exact absurd hm hchange
  | mergeRecords rs =>
    have hentries := (Shelf.metadata_apart.mergeAll Shelf.lawful_records rs s).1
    exact absurd ((congrArg (·[h]?) hentries).symm.trans hm) hchange
  | mergeMetadata ms =>
    constructor
    · intro hnewer
      rcases times_mergeMetadata hm with ⟨q, hq, hh, htime⟩ | ⟨old, hold, htime⟩
      · exact ⟨q, hq, hh, htime ▸ hnewer⟩
      · rw [← htime] at hnewer
        exact absurd hnewer (UInt64.not_lt.mpr (hs.metadata.seen hold))
    · rintro ⟨q, hq, rfl, hnewer⟩
      obtain ⟨b, hb, hwithin⟩ := Shelf.lawful_metadata.covers_mergeAll (s := s) (.inr hq)
      obtain rfl : b = m := Option.some.inj (hb.symm.trans hm)
      exact UInt64.lt_of_lt_of_le hnewer hwithin.1

/-! ## Peers that had caught up -/

theorem Shelved.record?_pulled (hp : p.Shelved) (ht : t.Shelved) {max : Nat}
    (hr : r ∈ t.recordsSince p.status.results max) :
    (p.mergeRecords (t.recordsSince p.status.results max)).2.record? r.hash = some r := by
  have hnewer := (ht.records.mem_newer.mp (List.mem_of_mem_take hr)).2
  obtain ⟨q, hq, hle⟩ := Shelf.lawful_records.covers_mergeAll (s := p) (.inr hr)
  have hq : (p.mergeRecords (t.recordsSince p.status.results max)).2.record? r.hash = some q := hq
  rcases mem_or_held_of_record?_mergeRecords hq with hmem | hheld
  · -- the batch has no other record of this hash
    have hhash : q.hash = r.hash := (hp.mergeRecords _).records.hash hq
    have hqheld := (ht.records.mem_newer.mp (List.mem_of_mem_take hmem)).1
    have hrheld := (ht.records.mem_newer.mp (List.mem_of_mem_take hr)).1
    have hqheld : Shelf.records.held t r.hash = some q := hhash ▸ hqheld
    exact hq.trans (hqheld.symm.trans hrheld)
  · have hseen := UInt64.le_trans hle (hp.records.seen hheld)
    exact absurd hnewer (UInt64.not_lt.mpr hseen)

/-- An operation changes an entry. Every long enough pull from the earlier watermark on shows the
change if the entry is newer than that watermark, and no pull shows it otherwise. If it shows, the
watermark has gone up, and a peer whose watermark was the earlier one has the change after its pull.
A changed record is one that the operation brought; changed metadata is newer than the earlier
watermark if and only if some entry that was merged for its page is, whatever the votes. -/
theorem change_shows_iff (hs : s.Reachable) (o : Operation) : let t := o.apply s
    (∀ h r, t.record? h = some r → s.record? h ≠ some r → r ∈ o.brought ∧
      ((∃ n, ∀ max, n ≤ max → r ∈ t.recordsSince s.status.results max) ↔
        s.status.results < r.timestamp) ∧
      (r.timestamp ≤ s.status.results → ∀ max, r ∉ t.recordsSince s.status.results max) ∧
      (s.status.results < r.timestamp → s.status.results < t.status.results ∧
        ∀ p : Store, p.Reachable → p.status.results = s.status.results →
          ∃ n, ∀ max, n ≤ max →
            (p.mergeRecords (t.recordsSince p.status.results max)).2.record? h = some r)) ∧
    ∀ h m, t.metadata? h = some m → s.metadata? h ≠ some m →
      (s.status.metadata < m.timestamp ↔
        ∃ q ∈ o.metadata, q.hash = h ∧ s.status.metadata < q.timestamp) ∧
      ((∃ n, ∀ max, n ≤ max → m ∈ t.metadataSince s.status.metadata max) ↔
        s.status.metadata < m.timestamp) ∧
      (m.timestamp ≤ s.status.metadata → ∀ max, m ∉ t.metadataSince s.status.metadata max) ∧
      (s.status.metadata < m.timestamp → s.status.metadata < t.status.metadata ∧
        ∀ p : Store, p.Reachable → p.status.metadata = s.status.metadata →
          ∃ n, ∀ max, n ≤ max → ∃ q,
            (p.mergeMetadata (t.metadataSince p.status.metadata max)).2.metadata? h = some q ∧
              m.timestamp ≤ q.timestamp ∧ m.votes ≤ q.votes) := by
  intro t
  have ht : t.Shelved := hs.shelved.apply o
  constructor
  · intro h r hr hchange
    obtain rfl := ht.records.hash hr
    have hoffered : (∃ n, ∀ max, n ≤ max → r ∈ t.recordsSince s.status.results max) ↔
        s.status.results < r.timestamp := ht.records.offered_iff hr
    refine ⟨mem_brought_of_change hr hchange, hoffered, ht.records.not_offered, fun hnewer => ?_⟩
    refine ⟨UInt64.lt_of_lt_of_le hnewer (ht.records.seen hr), fun p hp hmark => ?_⟩
    obtain ⟨n, hn⟩ := hoffered.mpr hnewer
    refine ⟨n, fun max hmax => hp.shelved.record?_pulled ht ?_⟩
    rw [hmark]
    exact hn max hmax
  · intro h m hm hchange
    obtain rfl := ht.metadata.hash hm
    have hoffered : (∃ n, ∀ max, n ≤ max → m ∈ t.metadataSince s.status.metadata max) ↔
        s.status.metadata < m.timestamp := ht.metadata.offered_iff hm
    refine ⟨hs.shelved.newer_change_iff hm hchange, hoffered, ht.metadata.not_offered,
      fun hnewer => ?_⟩
    refine ⟨UInt64.lt_of_lt_of_le hnewer (ht.metadata.seen hm), fun p hp hmark => ?_⟩
    obtain ⟨n, hn⟩ := hoffered.mpr hnewer
    refine ⟨n, fun max hmax => Shelf.lawful_metadata.covers_mergeAll (.inr ?_)⟩
    rw [hmark]
    exact hn max hmax

/-- A newer record and newer metadata of a page: a peer that had caught up gets both. -/
theorem change_shows_iff_of_newer :
    let r (t : Time) : Record := ⟨.zero, "u", "t", "s", t⟩
    let m (t : Time) : Metadata := ⟨.zero, ⟨0x3F800000⟩, 3, t⟩
    let s := empty.run [.insert (r 5), .mergeMetadata [m 5]]
    let t := (s.mergeRecords [r 10]).2
    let u := (s.mergeMetadata [m 10]).2
    s.Reachable ∧ s.status = ⟨5, 5⟩ ∧ t.record? .zero = some (r 10) ∧
      (∃ n, ∀ max, n ≤ max → r 10 ∈ t.recordsSince 5 max) ∧
      (∃ n, ∀ max, n ≤ max → (s.mergeRecords (t.recordsSince 5 max)).2.record? .zero =
        some (r 10)) ∧
      ∃ q, u.metadata? .zero = some q ∧ ∃ n, ∀ max, n ≤ max → q ∈ u.metadataSince 5 max := by
  intro r m s t u
  have hs : s.Reachable := ⟨_, rfl⟩
  have hstatus : s.status = ⟨5, 5⟩ := by decide +kernel
  have hr : t.record? .zero = some (r 10) := by decide +kernel
  obtain ⟨hrecords, -⟩ := change_shows_iff hs (.mergeRecords [r 10])
  obtain ⟨-, hshows, -, hpeer⟩ := hrecords .zero (r 10) hr (by decide +kernel)
  rw [hstatus] at hshows hpeer
  obtain ⟨n, hn⟩ := (hpeer (by decide)).2 s hs (by rw [hstatus])
  rw [hstatus] at hn
  refine ⟨hs, hstatus, hr, hshows.mpr (by decide), ⟨n, hn⟩, ?_⟩
  obtain ⟨q, hq, htime, -⟩ : Shelf.metadata.Covers u (m 10) :=
    Shelf.lawful_metadata.covers_mergeAll (.inr List.mem_cons_self)
  obtain ⟨-, hmetadata⟩ := change_shows_iff hs (.mergeMetadata [m 10])
  have hnew : s.metadata? .zero ≠ some q := by
    intro hq'
    exact UInt64.not_lt.mpr (hs.shelved.metadata.seen hq') (UInt64.lt_of_lt_of_le (by decide) htime)
  obtain ⟨-, hshows, -, -⟩ := hmetadata .zero q hq hnew
  rw [hstatus] at hshows
  exact ⟨q, hq, hshows.mpr (UInt64.lt_of_lt_of_le (by decide) htime)⟩

/-- A record that is merged after a newer one of another page, and metadata that gains votes: both
are taken up, and no pull from the watermarks on shows them. -/
theorem late_changes_hidden :
    let r : Record := ⟨.zero, "u", "t", "s", 10⟩
    let late : Record := ⟨⟨List.replicate 32 1, List.length_replicate⟩, "v", "t", "s", 5⟩
    let m : Metadata := ⟨.zero, ⟨0x3F800000⟩, 1, 10⟩
    let better : Metadata := ⟨.zero, ⟨0x3F800000⟩, 9, 5⟩
    let s := empty.run [.insert r, .mergeMetadata [m]]
    let t := (s.mergeRecords [late]).2
    let u := (s.mergeMetadata [better]).2
    s.Reachable ∧ s.status = ⟨10, 10⟩ ∧
      (t.record? late.hash = some late ∧ s.record? late.hash = none ∧
        ∀ max, late ∉ t.recordsSince 10 max) ∧
      ∃ q, u.metadata? .zero = some q ∧ q.votes = 9 ∧ s.metadata? .zero = some m ∧
        ∀ max, q ∉ u.metadataSince 10 max := by
  intro r late m better s t u
  have hs : s.Reachable := ⟨_, rfl⟩
  have hm : s.metadata? .zero = some m := by decide +kernel
  have ht : t.Shelved := hs.shelved.mergeRecords [late]
  have hu : u.Shelved := hs.shelved.mergeMetadata [better]
  have hbetter : u = s.insertMetadata (combine m better) := by
    show (s.mergeMetadatum better).2 = _
    unfold mergeMetadatum
    rw [hm]
    rfl
  refine ⟨hs, by decide +kernel, ⟨by decide +kernel, by decide +kernel, ?_⟩, combine m better, ?_,
    by decide, hm, ?_⟩
  · exact ht.records.not_offered (by decide)
  · rw [hbetter, metadata?_insertMetadata]
    exact if_pos rfl
  · exact hu.metadata.not_offered (by decide)

end SearchOverlay.Store
