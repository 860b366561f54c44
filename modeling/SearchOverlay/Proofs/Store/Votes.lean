import SearchOverlay.Proofs.Store.Growth

/-!
# Metadata in any order

An entry is passed over only if the held one of its page has as many votes and is not older, and
otherwise both give the larger number of votes and the later time. So a page ends up with the most
votes and the latest time of all entries that came for it, and the watermark with the latest time
of all entries, whatever the order and the batches in which they come. The score is an average of
the entries that were taken up, and these depend on the order.
-/

namespace SearchOverlay

/-- An entry without its score. -/
def Metadata.unscored (m : Metadata) : Metadata := { m with score := ⟨0⟩ }

namespace Store

theorem max?_of_perm {α : Type} [Max α] [LE α] [Std.IsLinearOrder α] [Std.LawfulOrderMax α]
    {as bs : List α} (h : as.Perm bs) : as.max? = bs.max? := by
  cases has : as.max? with
  | none =>
    rw [List.max?_eq_none_iff] at has
    subst has
    rw [← h.nil_eq, List.max?_nil]
  | some a =>
    symm
    rw [List.max?_eq_some_iff] at has ⊢
    exact ⟨h.mem_iff.mp has.1, fun b hb => has.2 b (h.mem_iff.mpr hb)⟩

/-! ## The entries of one page -/

/-- The entry that is held when one has come upon what was held. -/
def joined : Option Metadata → Metadata → Option Metadata
  | some old, m =>
    if m.timestamp ≤ old.timestamp && m.votes ≤ old.votes then some old else some (combine old m)
  | none, m => some m

section Page

variable {α : Type} {f : Metadata → α} {held : Option Metadata} {ms : List Metadata}

/-- Of two entries of a page the larger value is kept, whether the second is taken up or not. -/
structure Grades [Max α] [LE α] (f : Metadata → α) : Prop where
  combine : ∀ old m, f (combine old m) = max (f old) (f m)
  passed : ∀ {old m : Metadata}, m.timestamp ≤ old.timestamp → m.votes ≤ old.votes → f m ≤ f old

theorem grades_votes : Grades Metadata.votes := ⟨fun _ _ => rfl, fun _ hvotes => hvotes⟩

theorem grades_timestamp : Grades Metadata.timestamp := ⟨fun _ _ => rfl, fun htime _ => htime⟩

theorem Grades.joined_some [Max α] [LE α] [Std.LawfulOrderLeftLeaningMax α] (hf : Grades f)
    (old m : Metadata) : ∃ p, joined (some old) m = some p ∧ f p = max (f old) (f m) := by
  rw [joined]
  split
  · next hpassed =>
    rw [Bool.and_eq_true, decide_eq_true_iff, decide_eq_true_iff] at hpassed
    have hle := hf.passed hpassed.1 hpassed.2
    exact ⟨old, rfl, (Std.LawfulOrderLeftLeaningMax.max_eq_left _ _ hle).symm⟩
  · exact ⟨_, rfl, hf.combine old m⟩

/-- After any entries the largest value of all is held. -/
theorem Grades.foldl_joined [Max α] [LE α] [Std.LawfulOrderLeftLeaningMax α] (hf : Grades f) :
    (ms.foldl joined held).map f = ((held.toList ++ ms).map f).max? := by
  induction ms generalizing held with
  | nil => cases held <;> rfl
  | cons m ms ih =>
    rw [List.foldl_cons, ih]
    cases held with
    | none => rfl
    | some old =>
      obtain ⟨p, hp, hmax⟩ := hf.joined_some old m
      rw [hp]
      show (f p :: ms.map f).max? = (f old :: f m :: ms.map f).max?
      rw [hmax, List.max?_cons', List.max?_cons', List.foldl_cons]

end Page

/-! ## Deliveries -/

variable {s : Store} {m : Metadata} {ms : List Metadata} {bs cs : List (List Metadata)}
  {h : ContentHash}

def deliverMetadata (bs : List (List Metadata)) (s : Store) : Store :=
  bs.foldl (fun s ms => (s.mergeMetadata ms).2) s

theorem deliverMetadata_eq (bs : List (List Metadata)) (s : Store) :
    s.deliverMetadata bs = (s.mergeMetadata bs.flatten).2 := Shelf.metadata.mergeAll_flatten bs s

/-- Everything that there is of a page once the entries have come. -/
def entriesOf (h : ContentHash) (s : Store) (ms : List Metadata) : List Metadata :=
  (s.metadata? h).toList ++ ms.filter (·.hash = h)

theorem metadata?_mergeMetadatum (m : Metadata) (s : Store) (h : ContentHash) :
    (s.mergeMetadatum m).2.metadata? h =
      if m.hash = h then joined (s.metadata? h) m else s.metadata? h := by
  have hput (p : Metadata) : (s.insertMetadata p).metadata? h =
      if p.hash = h then some p else s.metadata? h := Shelf.lawful_metadata.held_put p s h
  unfold mergeMetadatum
  split
  · next old hold => grind [joined, combine]
  · next hnone => grind [joined]

theorem metadata?_mergeMetadata (ms : List Metadata) (s : Store) (h : ContentHash) :
    (s.mergeMetadata ms).2.metadata? h =
      (ms.filter (·.hash = h)).foldl joined (s.metadata? h) := by
  rw [mergeMetadata, mergeEach_snd, List.foldl_filter]
  induction ms generalizing s with
  | nil => rfl
  | cons m ms ih =>
    rw [List.foldl_cons, ih, metadata?_mergeMetadatum, List.foldl_cons]
    simp only [decide_eq_true_eq]

theorem Grades.deliverMetadata {α : Type} [Max α] [LE α] [Std.IsLinearOrder α]
    [Std.LawfulOrderLeftLeaningMax α] {f : Metadata → α} (hf : Grades f)
    (hbs : bs.flatten.Perm ms) (s : Store) (h : ContentHash) :
    ((s.deliverMetadata bs).metadata? h).map f = ((entriesOf h s ms).map f).max? := by
  rw [deliverMetadata_eq, metadata?_mergeMetadata, hf.foldl_joined]
  exact max?_of_perm (((hbs.filter _).append_left _).map f)

/-- An entry that is passed over is not above the watermark either. -/
theorem Shelved.status_mergeMetadatum (hs : s.Shelved) (m : Metadata) :
    (s.mergeMetadatum m).2.status.metadata = max s.status.metadata m.timestamp := by
  unfold mergeMetadatum
  split
  · next old hold =>
    have hseen : old.timestamp ≤ s.status.metadata := hs.metadata.seen hold
    split
    · next hpassed =>
      rw [Bool.and_eq_true, decide_eq_true_iff] at hpassed
      have hle := UInt64.le_trans hpassed.1 hseen
      exact (Std.LawfulOrderLeftLeaningMax.max_eq_left _ _ hle).symm
    · calc max s.status.metadata (max old.timestamp m.timestamp)
        _ = max (max s.status.metadata old.timestamp) m.timestamp :=
          (Std.Associative.assoc ..).symm
        _ = max s.status.metadata m.timestamp := by
          rw [Std.LawfulOrderLeftLeaningMax.max_eq_left _ _ hseen]
  · rfl

theorem Shelved.status_mergeMetadata (hs : s.Shelved) (ms : List Metadata) :
    (s.mergeMetadata ms).2.status.metadata =
      (ms.map (·.timestamp)).foldl max s.status.metadata := by
  rw [Store.mergeMetadata, mergeEach_snd]
  induction ms generalizing s with
  | nil => rfl
  | cons m ms ih =>
    have hm : (s.mergeMetadatum m).2.Shelved := hs.mergeMetadata [m]
    rw [List.foldl_cons, ih hm, hs.status_mergeMetadatum, List.map_cons, List.foldl_cons]

theorem Shelved.some_status_deliverMetadata (hs : s.Shelved) (hbs : bs.flatten.Perm ms) :
    some (s.deliverMetadata bs).status.metadata =
      (s.status.metadata :: ms.map (·.timestamp)).max? := by
  rw [deliverMetadata_eq, hs.status_mergeMetadata, ← List.max?_cons']
  exact max?_of_perm ((hbs.map _).cons _)

theorem deliverMetadata_frame (bs : List (List Metadata)) (s : Store) :
    (s.deliverMetadata bs).records = s.records ∧
      (s.deliverMetadata bs).status.results = s.status.results := by
  rw [deliverMetadata_eq]
  exact Shelf.records_apart.mergeAll Shelf.lawful_metadata bs.flatten s

theorem Shelved.hash_deliverMetadata (hs : s.Shelved) (bs : List (List Metadata))
    (hm : (s.deliverMetadata bs).metadata? h = some m) : m.hash = h := by
  rw [deliverMetadata_eq] at hm
  exact (hs.mergeMetadata bs.flatten).metadata.hash hm

/-- Entries that agree in their hashes, votes and times differ in their scores only. -/
theorem map_unscored_eq {o p : Option Metadata} (ho : ∀ m, o = some m → m.hash = h)
    (hp : ∀ m, p = some m → m.hash = h) (hvotes : o.map (·.votes) = p.map (·.votes))
    (htime : o.map (·.timestamp) = p.map (·.timestamp)) :
    o.map (·.unscored) = p.map (·.unscored) := by
  cases o <;> cases p <;> grind [Metadata.unscored]

/-- After merges of metadata in any order and any batches, each hash has the most votes and the
latest time of all its entries, held before or merged, and the watermark is the latest time of all
that came, those that were passed over included. Another order may only change the scores. -/
theorem deliverMetadata_joins (hs : s.Reachable) (hbs : bs.flatten.Perm ms) :
    let t := s.deliverMetadata bs
    (∀ h, (t.metadata? h).map (·.votes) = ((entriesOf h s ms).map (·.votes)).max? ∧
      (t.metadata? h).map (·.timestamp) = ((entriesOf h s ms).map (·.timestamp)).max? ∧
      ∀ m, t.metadata? h = some m → m.hash = h) ∧
    some t.status.metadata = (s.status.metadata :: ms.map (·.timestamp)).max? ∧
    t.records = s.records ∧ t.status.results = s.status.results ∧
    ∀ cs, cs.flatten.Perm ms → let u := s.deliverMetadata cs
      u.records = t.records ∧ u.status = t.status ∧
      ∀ h, (u.metadata? h).map (·.unscored) = (t.metadata? h).map (·.unscored) := by
  intro t
  have hs := hs.shelved
  have hvotes {cs : List (List Metadata)} (hcs : cs.flatten.Perm ms) (h : ContentHash) :=
    grades_votes.deliverMetadata hcs s h
  have htime {cs : List (List Metadata)} (hcs : cs.flatten.Perm ms) (h : ContentHash) :=
    grades_timestamp.deliverMetadata hcs s h
  have hstatus {cs : List (List Metadata)} (hcs : cs.flatten.Perm ms) :=
    hs.some_status_deliverMetadata hcs
  obtain ⟨hrecords, hresults⟩ := deliverMetadata_frame bs s
  refine ⟨fun h => ⟨hvotes hbs h, htime hbs h, fun m => hs.hash_deliverMetadata bs⟩, hstatus hbs,
    hrecords, hresults, fun cs hcs => ?_⟩
  obtain ⟨hrecords', hresults'⟩ := deliverMetadata_frame cs s
  refine ⟨hrecords'.trans hrecords.symm, ?_, fun h => ?_⟩
  · rw [SyncStatus.mk.injEq]
    exact ⟨hresults'.trans hresults.symm, Option.some.inj ((hstatus hcs).trans (hstatus hbs).symm)⟩
  · exact map_unscored_eq (fun m => hs.hash_deliverMetadata cs)
      (fun m => hs.hash_deliverMetadata bs)
      ((hvotes hcs h).trans (hvotes hbs h).symm) ((htime hcs h).trans (htime hbs h).symm)

/-- Three entries come upon a held one of their page, the first with the most votes, the second with
the latest time and the third with neither, so that it is passed over. The scores of the three are
no numbers, and the score of the first one that is taken up stays. -/
theorem deliverMetadata_joins_three :
    let m (bits votes : UInt32) (t : Time) : Metadata := ⟨.zero, ⟨bits⟩, votes, t⟩
    let a := m 0x7FC00001 9 10
    let b := m 0x7FC00002 2 20
    let c := m 0x7FC00003 1 5
    let s := empty.run [.mergeMetadata [m 0x3F800000 3 7]]
    let t := s.deliverMetadata [[a], [b, c]]
    let u := s.deliverMetadata [[c, b], [], [a]]
    s.Reachable ∧ (t.metadata? .zero).map (·.votes) = some 9 ∧
      (t.metadata? .zero).map (·.timestamp) = some 20 ∧ some t.status.metadata = some 20 ∧
      u.status = t.status ∧ (t.metadata? .zero).map (·.score) = some ⟨0x7FC00001⟩ ∧
      (u.metadata? .zero).map (·.score) = some ⟨0x7FC00002⟩ := by
  intro m a b c s t u
  have hs : s.Reachable := ⟨_, rfl⟩
  have ht : [[a], [b, c]].flatten.Perm [a, b, c] := .refl _
  have hu : [[c, b], [], [a]].flatten.Perm [a, b, c] := List.reverse_perm [a, b, c]
  obtain ⟨hpages, hstatus, -, -, hother⟩ := deliverMetadata_joins hs ht
  have hentries : entriesOf .zero s [a, b, c] = [m 0x3F800000 3 7, a, b, c] := by decide +kernel
  obtain ⟨hvotes, htime, -⟩ := hpages .zero
  rw [hentries] at hvotes htime
  exact ⟨hs, hvotes.trans (by decide), htime.trans (by decide), hstatus.trans (by decide +kernel),
    (hother _ hu).2.1, by decide +kernel, by decide +kernel⟩

end Store

end SearchOverlay
