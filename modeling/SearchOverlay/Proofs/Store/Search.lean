import SearchOverlay.Proofs.Lowercase
import SearchOverlay.Proofs.Store.Operations

/-!
# Searching

A search finds the records with a text whose lower case contains the lower case of the query. Both
are put in lower case each on its own, so a record that contains the query literally is found unless
a capital sigma of the query ends a word there and not in the query, or the other way round.
-/

namespace SearchOverlay

theorem occursIn_iff {needle text : List Char} : occursIn needle text ↔ needle <:+: text := by
  induction text with
  | nil => rw [occursIn, List.isEmpty_iff, List.infix_nil]
  | cons c text ih =>
    rw [occursIn, Bool.or_eq_true, List.isPrefixOf_iff_prefix, ih, List.infix_cons_iff]

namespace Record

/-- The texts that a search reads. -/
def texts (r : Record) : List String := [r.title, r.snippet, r.url]

/-- Whether a text of the record contains the query literally. -/
def Contains (query : String) (r : Record) : Prop :=
  ∃ text ∈ r.texts, query.toList <:+: text.toList

theorem mentions_iff {needle : List Char} {r : Record} :
    r.mentions needle ↔ ∃ text ∈ r.texts, needle <:+: Lowercase.ofList text.toList := by
  simp only [mentions, texts, List.any_eq_true, occursIn_iff]

end Record

namespace Store

variable {s : Store} {r : Record} {query text : String}

theorem search_perm (query : String) (s : Store) : (s.search query).Perm
    (s.recordList.filter (Record.mentions (Lowercase.ofList query.toList))) :=
  List.mergeSort_perm ..

theorem Sound.mem_search (hs : s.Sound) : r ∈ s.search query ↔ s.record? r.hash = some r ∧
    ∃ text ∈ r.texts, Lowercase.ofList query.toList <:+: Lowercase.ofList text.toList := by
  rw [(search_perm query s).mem_iff, List.mem_filter, Record.mentions_iff]
  exact and_congr_left fun _ => (sound_iff.mp hs).mem_all

theorem Sound.nodup_search (hs : s.Sound) (query : String) :
    ((s.search query).map (·.hash)).Nodup := by
  rw [((search_perm query s).map _).nodup_iff]
  exact (sound_iff.mp hs).nodup_all.sublist (List.filter_sublist.map _)

theorem search_sorted (query : String) (s : Store) :
    (s.search query).Pairwise fun r q => q.timestamp ≤ r.timestamp := by
  refine (List.pairwise_mergeSort ?_ ?_ _).imp of_decide_eq_true
  · intro r q p hqr hpq
    exact decide_eq_true (UInt64.le_trans (of_decide_eq_true hpq) (of_decide_eq_true hqr))
  · intro r q
    rw [Bool.or_eq_true, decide_eq_true_iff, decide_eq_true_iff]
    exact UInt64.le_total ..

/-- A literal occurrence counts if the query has there the lower case that it has alone. -/
theorem Sound.mem_search_of_within (hs : s.Sound) (hr : s.record? r.hash = some r)
    (htext : text ∈ r.texts) {before after : List Char}
    (hsplit : text.toList = before ++ query.toList ++ after)
    (hwithin : Lowercase.within before.reverse query.toList after =
      Lowercase.ofList query.toList) : r ∈ s.search query := by
  refine hs.mem_search.mpr ⟨hr, text, htext, ?_⟩
  rw [hsplit, ← hwithin, Lowercase.ofList_eq, Lowercase.within_append, Lowercase.within_append,
    List.append_nil, List.append_nil]
  exact ⟨_, _, rfl⟩

theorem Sound.mem_search_of_settled (hs : s.Sound) (hr : s.record? r.hash = some r)
    (hquery : Lowercase.Settled query.toList) (h : r.Contains query) : r ∈ s.search query := by
  obtain ⟨text, htext, before, after, hsplit⟩ := h
  exact hs.mem_search_of_within hr htext hsplit.symm (hquery.within_eq _ _)

/-- A query that is not settled misses a record that contains it, be it the only one. -/
theorem exists_missed (h : ¬ Lowercase.Settled query.toList) :
    ∃ r : Record, r.Contains query ∧ r ∉ (empty.insert r).search query := by
  obtain ⟨cs, hinfix, hhidden⟩ := Lowercase.exists_hidden h
  obtain ⟨text, rfl⟩ : ∃ text : String, text.toList = cs := ⟨.ofList cs, String.toList_ofList⟩
  refine ⟨.ofPage text text text 0, ⟨text, List.mem_cons_self, hinfix⟩, fun hmem => ?_⟩
  obtain ⟨-, found, hfound, hshown⟩ := (sound_empty.insert _).mem_search.mp hmem
  obtain rfl : found = text := by simpa [Record.texts, Record.ofPage] using hfound
  exact hhidden hshown

/-- An answer has no page twice and the latest records first, and in it are the held records with a
text that contains the query when both are in lower case. So a record that contains the query
literally is found wherever the query's capital sigmas end words in the text if they do so in the
query alone; and all records that contain it are found, in every store, precisely for those queries
that settle by themselves which of their capital sigmas end words. -/
theorem search_complete_iff (query : String) :
    (∀ s : Store, s.Reachable →
      ((s.search query).map (·.hash)).Nodup ∧
      (s.search query).Pairwise (fun r q => q.timestamp ≤ r.timestamp) ∧
      (∀ r, r ∈ s.search query ↔ s.record? r.hash = some r ∧
        ∃ text ∈ r.texts, Lowercase.ofList query.toList <:+: Lowercase.ofList text.toList) ∧
      ∀ r, s.record? r.hash = some r → ∀ text ∈ r.texts, ∀ before after,
        text.toList = before ++ query.toList ++ after →
        (∀ u v, query.toList = u ++ 'Σ' :: v →
          Lowercase.isFinal (u.reverse ++ before.reverse) (v ++ after) =
            Lowercase.isFinal u.reverse v) →
        r ∈ s.search query) ∧
    ((∀ s : Store, s.Reachable → ∀ r, s.record? r.hash = some r → r.Contains query →
      r ∈ s.search query) ↔ Lowercase.Settled query.toList) := by
  refine ⟨fun s hs => ?_, fun hfound => ?_, fun hquery s hs r hr => ?_⟩
  · have hs := hs.sound
    refine ⟨hs.nodup_search query, search_sorted query s, fun r => hs.mem_search,
      fun r hr text htext before after hsplit hsigmas => ?_⟩
    apply hs.mem_search_of_within hr htext hsplit
    rw [Lowercase.ofList_eq]
    apply Lowercase.within_congr
    simpa only [List.append_nil] using hsigmas
  · apply Classical.byContradiction
    intro hquery
    obtain ⟨r, hcontains, hmissed⟩ := exists_missed hquery
    refine hmissed (hfound (empty.insert r) ⟨[.insert r], rfl⟩ r ?_ hcontains)
    rw [record?_insert, if_pos rfl]
  · exact hs.sound.mem_search_of_settled hr hquery

/-- Before ΟΦ the sigma of a query does not end a word anywhere. That of ΛΟΓΟΣ may, and does at the
place in question. -/
theorem search_complete_iff_of_words :
    let r := Record.ofPage "u" "Ο ΛΟΓΟΣ ΚΑΙ Η ΣΟΦΙΑ" "s" 5
    let s := empty.run [.insert r, .insert (.ofPage "v" "" "σοφή" 7)]
    s.Reachable ∧ s.record? r.hash = some r ∧
      Lowercase.Settled "ΣΟΦ".toList ∧ r ∈ s.search "ΣΟΦ" ∧
      ¬ Lowercase.Settled "ΛΟΓΟΣ".toList ∧ r ∈ s.search "ΛΟΓΟΣ" ∧
      ((s.search "ΣΟΦ").map (·.hash)).Nodup ∧
      (s.search "ΣΟΦ").Pairwise (fun r q => q.timestamp ≤ r.timestamp) := by
  intro r s
  have hs : s.Reachable := ⟨_, rfl⟩
  have hr : s.record? r.hash = some r := by decide +kernel
  have hsettled : Lowercase.Settled "ΣΟΦ".toList := by decide +kernel
  obtain ⟨hanswer, hall⟩ := search_complete_iff "ΣΟΦ"
  obtain ⟨hnodup, hsorted, -, -⟩ := hanswer s hs
  obtain ⟨-, -, -, hplace⟩ := (search_complete_iff "ΛΟΓΟΣ").1 s hs
  refine ⟨hs, hr, hsettled, ?_, by decide +kernel, ?_, hnodup, hsorted⟩
  · refine hall.mpr hsettled s hs r hr ⟨r.title, List.mem_cons_self, ?_⟩
    exact ⟨"Ο ΛΟΓΟΣ ΚΑΙ Η ".toList, "ΙΑ".toList, by decide +kernel⟩
  · exact hplace r hr r.title List.mem_cons_self "Ο ".toList " ΚΑΙ Η ΣΟΦΙΑ".toList
      (by decide +kernel) (Lowercase.forall_split_iff.mpr (by decide +kernel))

/-- The sigma ends the query, but not the word of the title. -/
theorem capital_sigma_missed :
    let r := Record.ofPage "u" "ΜΟΥΣΕΙΟ" "s" 5
    let s := empty.run [.insert r]
    s.Reachable ∧ s.record? r.hash = some r ∧ r.Contains "ΜΟΥΣ" ∧ s.search "ΜΟΥΣ" = [] ∧
      ¬ ∀ s : Store, s.Reachable → ∀ r, s.record? r.hash = some r → r.Contains "ΜΟΥΣ" →
        r ∈ s.search "ΜΟΥΣ" := by
  intro r s
  have hs : s.Reachable := ⟨_, rfl⟩
  have hr : s.record? r.hash = some r := by decide +kernel
  have hcontains : r.Contains "ΜΟΥΣ" :=
    ⟨r.title, List.mem_cons_self, [], "ΕΙΟ".toList, by decide +kernel⟩
  have hnone : s.search "ΜΟΥΣ" = [] := by decide +kernel
  refine ⟨hs, hr, hcontains, hnone, fun hfound => ?_⟩
  have hmem := hfound s hs r hr hcontains
  rw [hnone] at hmem
  cases hmem

end Store

end SearchOverlay
