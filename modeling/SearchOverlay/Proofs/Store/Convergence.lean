import Mathlib.Data.List.Nodup
import SearchOverlay.Proofs.Store.Operations

/-!
# Convergence

Of the records of a page a store keeps the newest, and of several that are equally new the one
that came first. How records are put into batches makes no difference, nor does the order in which
they come make any to the times and the watermark. The order decides which record is kept if and
only if different records of one page are the newest at once. So two stores that give each other
all that they hold come to hold the same unless they held different records of one page and one
time: then each keeps its own.
-/

namespace SearchOverlay.Store

/-! ## The records of one page -/

/-- The record that stays when one comes upon what is held. -/
def kept : Option Record → Record → Option Record
  | some old, r => if r.timestamp ≤ old.timestamp then some old else some r
  | none, r => some r

/-- The record is newer than what is held, and none in the list is newer. -/
structure Newest (held : Option Record) (rs : List Record) (r : Record) : Prop where
  mem : r ∈ rs
  news : ∀ old ∈ held, old.timestamp < r.timestamp
  latest : ∀ q ∈ rs, q.timestamp ≤ r.timestamp

section Page

variable {held : Option Record} {r q : Record} {rs qs : List Record}

theorem Newest.of_perm (hr : Newest held rs r) (h : qs.Perm rs) : Newest held qs r where
  mem := h.mem_iff.mpr hr.mem
  news := hr.news
  latest q hq := hr.latest q (h.mem_iff.mp hq)

theorem Newest.timestamp_eq (hr : Newest held rs r) (hq : Newest held rs q) :
    r.timestamp = q.timestamp :=
  Std.le_antisymm (hq.latest r hr.mem) (hr.latest q hq.mem)

theorem foldl_kept_of_le (h : ∀ q ∈ rs, q.timestamp ≤ r.timestamp) :
    rs.foldl kept (some r) = some r := by
  induction rs with
  | nil => rfl
  | cons q rs ih =>
    obtain ⟨hq, hrs⟩ := List.forall_mem_cons.mp h
    rw [List.foldl_cons, kept, if_pos hq, ih hrs]

theorem kept_cases (held : Option Record) (r : Record) :
    (kept held r = some r ∧ ∀ old ∈ held, old.timestamp < r.timestamp) ∨
      ∃ old, held = some old ∧ kept held r = some old ∧ r.timestamp ≤ old.timestamp := by
  cases held with
  | none => exact .inl ⟨rfl, nofun⟩
  | some old =>
    by_cases hle : r.timestamp ≤ old.timestamp
    · exact .inr ⟨old, rfl, if_pos hle, hle⟩
    · refine .inl ⟨if_neg hle, ?_⟩
      rintro _ ⟨⟩
      exact UInt64.not_le.mp hle

/-- What is held in the end was held before and nothing is newer, or it is the newest. -/
theorem foldl_kept (hr : rs.foldl kept held = some r) :
    (held = some r ∧ ∀ q ∈ rs, q.timestamp ≤ r.timestamp) ∨ Newest held rs r := by
  induction rs generalizing held with
  | nil => exact .inl ⟨hr, fun _ hq => absurd hq List.not_mem_nil⟩
  | cons p rs ih =>
    have hlatest (hp : p.timestamp ≤ r.timestamp) (h : ∀ q ∈ rs, q.timestamp ≤ r.timestamp) :
        ∀ q ∈ p :: rs, q.timestamp ≤ r.timestamp := List.forall_mem_cons.mpr ⟨hp, h⟩
    rw [List.foldl_cons] at hr
    rcases kept_cases held p with ⟨hkept, hnews⟩ | ⟨old, rfl, hkept, hle⟩
    · rw [hkept] at hr
      rcases ih hr with ⟨hp, hrs⟩ | hnew
      · cases hp
        exact .inr ⟨List.mem_cons_self, hnews, hlatest (UInt64.le_refl _) hrs⟩
      · have hp := hnew.news p rfl
        refine .inr ⟨List.mem_cons_of_mem _ hnew.mem, fun old hold => ?_, ?_⟩
        · exact UInt64.lt_trans (hnews old hold) hp
        · exact hlatest (UInt64.le_of_lt hp) hnew.latest
    · rw [hkept] at hr
      rcases ih hr with ⟨hold, hrs⟩ | hnew
      · cases hold
        exact .inl ⟨rfl, hlatest hle hrs⟩
      · have hp := UInt64.le_trans hle (UInt64.le_of_lt (hnew.news old rfl))
        exact .inr ⟨List.mem_cons_of_mem _ hnew.mem, hnew.news, hlatest hp hnew.latest⟩

theorem foldl_kept_eq_none (h : rs.foldl kept held = none) : held = none ∧ rs = [] := by
  induction rs generalizing held with
  | nil => exact ⟨h, rfl⟩
  | cons p rs ih =>
    obtain ⟨hnone, -⟩ := ih h
    rcases kept_cases held p with ⟨hkept, -⟩ | ⟨_, -, hkept, -⟩ <;> cases hnone.symm.trans hkept

theorem Newest.foldl_kept_cons (hr : Newest held (r :: rs) r) :
    (r :: rs).foldl kept held = some r := by
  have hkept : kept held r = some r := by
    rcases kept_cases held r with ⟨hkept, -⟩ | ⟨old, hold, -, hle⟩
    · exact hkept
    · exact absurd (hr.news old hold) (UInt64.not_lt.mpr hle)
  rw [List.foldl_cons, hkept]
  exact foldl_kept_of_le (List.forall_mem_cons.mp hr.latest).2

/-- In another order the same record is held in the end, or another one that is newest. -/
theorem foldl_kept_of_perm (held : Option Record) (h : qs.Perm rs) :
    qs.foldl kept held = rs.foldl kept held ∨
    ∃ q r, qs.foldl kept held = some q ∧ rs.foldl kept held = some r ∧
      Newest held rs q ∧ Newest held rs r := by
  cases hq : qs.foldl kept held with
  | none =>
    obtain ⟨rfl, rfl⟩ := foldl_kept_eq_none hq
    obtain rfl := h.nil_eq
    exact .inl rfl
  | some q =>
    cases hr : rs.foldl kept held with
    | none =>
      obtain ⟨rfl, rfl⟩ := foldl_kept_eq_none hr
      obtain rfl := h.eq_nil
      cases hq
    | some r =>
      rcases foldl_kept hq with ⟨hold, hle⟩ | hq' <;> rcases foldl_kept hr with ⟨hold', hle'⟩ | hr'
      · exact .inl (hold.symm.trans hold')
      · have hle := hle r (h.mem_iff.mpr hr'.mem)
        exact absurd (hr'.news q hold) (UInt64.not_lt.mpr hle)
      · have hle := hle' q (h.mem_iff.mp hq'.mem)
        exact absurd (hq'.news r hold') (UInt64.not_lt.mpr hle)
      · exact .inr ⟨q, r, rfl, rfl, hq'.of_perm h.symm, hr'⟩

theorem timestamp_foldl_kept_of_perm (h : qs.Perm rs) :
    (qs.foldl kept held).map (·.timestamp) = (rs.foldl kept held).map (·.timestamp) := by
  rcases foldl_kept_of_perm held h with heq | ⟨q, r, hq, hr, hq', hr'⟩
  · rw [heq]
  · rw [hq, hr, Option.map_some, Option.map_some, hq'.timestamp_eq hr']

/-- The order decides if and only if several are newest. -/
theorem foldl_kept_perm_iff :
    (∀ qs : List Record, qs.Perm rs → qs.foldl kept held = rs.foldl kept held) ↔
      ∀ r q, Newest held rs r → Newest held rs q → r = q := by
  constructor
  · intro hsame r q hr hq
    have hfirst {p : Record} (hp : Newest held rs p) : rs.foldl kept held = some p := by
      have hperm : (p :: rs.erase p).Perm rs := (List.perm_cons_erase hp.mem).symm
      rw [← hsame _ hperm, (hp.of_perm hperm).foldl_kept_cons]
    exact Option.some.inj ((hfirst hr).symm.trans (hfirst hq))
  · intro huntied qs h
    rcases foldl_kept_of_perm held h with heq | ⟨q, r, hq, hr, hq', hr'⟩
    · exact heq
    · rw [hq, hr, huntied q r hq' hr']

/-- What is held when the other's record has come, if there is one. -/
def received (held other : Option Record) : Option Record := other.elim held (kept held)

theorem foldl_kept_toList (held other : Option Record) :
    other.toList.foldl kept held = received held other := by
  cases other <;> rfl

/-- It does not matter whether the other gets back what was held or what is held by now. -/
theorem received_received (held other : Option Record) :
    received other (received held other) = received other held := by
  cases held <;> cases other <;> grind [received, kept]

theorem timestamp_received_comm (held other : Option Record) :
    (received held other).map (·.timestamp) = (received other held).map (·.timestamp) := by
  cases held <;> cases other <;> grind [received, kept]

theorem received_comm_iff {held other : Option Record} : received held other = received other held ↔
    ∀ r q, held = some r → other = some q → r.timestamp = q.timestamp → r = q := by
  cases held <;> cases other <;> grind [received, kept]

end Page

variable {s : Store} {rs qs : List Record} {bs : List (List Record)} {h : ContentHash}

def ofPage (h : ContentHash) (rs : List Record) : List Record := rs.filter (·.hash = h)

theorem record?_mergeRecord (r : Record) (s : Store) (h : ContentHash) :
    (s.mergeRecord r).2.record? h = if r.hash = h then kept (s.record? h) r else s.record? h := by
  unfold mergeRecord
  split
  · next old hold => grind [record?_insert, kept]
  · next hnone => grind [record?_insert, kept]

theorem record?_mergeRecords (rs : List Record) (s : Store) (h : ContentHash) :
    (s.mergeRecords rs).2.record? h = (ofPage h rs).foldl kept (s.record? h) := by
  rw [mergeRecords, mergeEach_snd, ofPage, List.foldl_filter]
  induction rs generalizing s with
  | nil => rfl
  | cons r rs ih =>
    rw [List.foldl_cons, ih, record?_mergeRecord, List.foldl_cons]
    simp only [decide_eq_true_eq]

theorem Sound.results_mergeRecord (hs : s.Sound) (r : Record) :
    (s.mergeRecord r).2.status.results = max s.status.results r.timestamp := by
  unfold Store.mergeRecord
  split
  · next old hold =>
    split
    · next hle =>
      have hle := UInt64.le_trans hle (hs.seen hold)
      exact (Std.LawfulOrderLeftLeaningMax.max_eq_left _ _ hle).symm
    · rfl
  · rfl

/-- The watermark is the latest time. -/
theorem Sound.results_mergeRecords_le_iff (hs : s.Sound) {t : Time} :
    (s.mergeRecords rs).2.status.results ≤ t ↔
      s.status.results ≤ t ∧ ∀ r ∈ rs, r.timestamp ≤ t := by
  rw [Store.mergeRecords, mergeEach_snd]
  induction rs generalizing s with
  | nil => simp only [List.foldl_nil, List.not_mem_nil, false_implies, implies_true, and_true]
  | cons r rs ih =>
    have hr : (s.mergeRecord r).2.Sound := hs.mergeRecords [r]
    rw [List.foldl_cons, ih hr, hs.results_mergeRecord, Std.LawfulOrderSup.max_le_iff,
      List.forall_mem_cons, and_assoc]

/-! ## Deliveries -/

def deliver (bs : List (List Record)) (s : Store) : Store :=
  bs.foldl (fun s rs => (s.mergeRecords rs).2) s

theorem deliver_eq (bs : List (List Record)) (s : Store) :
    s.deliver bs = (s.mergeRecords bs.flatten).2 := Shelf.records.mergeAll_flatten bs s

theorem Sound.status_mergeRecords_of_perm (hs : s.Sound) (h : qs.Perm rs) :
    (s.mergeRecords qs).2.status = (s.mergeRecords rs).2.status := by
  have hresults (t : Time) : (s.mergeRecords qs).2.status.results ≤ t ↔
      (s.mergeRecords rs).2.status.results ≤ t := by
    simp only [hs.results_mergeRecords_le_iff, h.mem_iff]
  have hmetadata (rs : List Record) : (s.mergeRecords rs).2.status.metadata = s.status.metadata :=
    (Shelf.metadata_apart.mergeAll Shelf.lawful_records rs s).2
  rw [SyncStatus.mk.injEq, hmetadata, hmetadata]
  exact ⟨Std.le_antisymm ((hresults _).mpr (UInt64.le_refl _))
    ((hresults _).mp (UInt64.le_refl _)), rfl⟩

/-- No page has two newest records in the list. -/
def Untied (s : Store) (rs : List Record) : Prop :=
  ∀ h r q, Newest (s.record? h) (ofPage h rs) r → Newest (s.record? h) (ofPage h rs) q → r = q

theorem ofPage_perm (h : ContentHash) (hperm : qs.Perm rs) : (ofPage h qs).Perm (ofPage h rs) :=
  hperm.filter _

theorem untied_iff : s.Untied rs ↔ ∀ qs, qs.Perm rs →
    ∀ h, (s.mergeRecords qs).2.record? h = (s.mergeRecords rs).2.record? h := by
  simp only [record?_mergeRecords]
  constructor
  · intro huntied qs hperm h
    exact foldl_kept_perm_iff.mpr (huntied h) _ (ofPage_perm h hperm)
  · intro hsame h
    refine foldl_kept_perm_iff.mp fun qs hqs => ?_
    have hperm : (qs ++ rs.filter fun r => !decide (r.hash = h)).Perm rs :=
      (hqs.append_right _).trans (List.filter_append_perm _ rs)
    have hpage : ofPage h (qs ++ rs.filter fun r => !decide (r.hash = h)) = qs := by
      have hqs (r : Record) (hr : r ∈ qs) : r.hash = h := by
        simpa using (List.mem_filter.mp (hqs.mem_iff.mp hr)).2
      rw [ofPage, List.filter_append, List.filter_eq_self.mpr (by simpa using hqs),
        List.filter_eq_nil_iff.mpr (by simp), List.append_nil]
    rw [← hsame _ hperm h, hpage]

theorem Sound.ofPage_recordList (hs : s.Sound) (hperm : rs.Perm s.recordList) (h : ContentHash) :
    ofPage h rs = (s.record? h).toList := by
  have hshelf := sound_iff.mp hs
  have hnodup : s.recordList.Nodup := hshelf.nodup_all.of_map _
  have hmem (r : Record) : r ∈ ofPage h s.recordList ↔ r ∈ (s.record? h).toList := by
    rw [ofPage, List.mem_filter, decide_eq_true_eq, Option.mem_toList]
    constructor
    · rintro ⟨hr, rfl⟩
      exact hshelf.mem_all.mp hr
    · intro hr
      obtain rfl := hs.hash hr
      exact ⟨hshelf.mem_all.mpr hr, rfl⟩
  have hsingle : (s.record? h).toList.Nodup := by cases s.record? h <;> simp
  have hpage : (ofPage h rs).Perm (s.record? h).toList :=
    (ofPage_perm h hperm).trans ((List.perm_ext_iff_of_nodup (hnodup.filter _) hsingle).mpr hmem)
  cases hr : s.record? h with
  | none => exact (hr ▸ hpage).eq_nil
  | some r => exact (hr ▸ hpage).eq_singleton

/-- What one store holds is delivered to another, in any order and any batches. -/
theorem Sound.record?_deliver (hs : s.Sound) (t : Store) (hbs : bs.flatten.Perm s.recordList)
    (h : ContentHash) : (t.deliver bs).record? h = received (t.record? h) (s.record? h) := by
  rw [deliver_eq, record?_mergeRecords, hs.ofPage_recordList hbs, foldl_kept_toList]

theorem Sound.deliver (hs : s.Sound) (bs : List (List Record)) : (s.deliver bs).Sound := by
  rw [deliver_eq]
  exact hs.mergeRecords bs.flatten

/-- Batches make no difference. Nor does the order to the watermarks and the times of the records,
and it makes none to the records if and only if no page has two newest ones among those that come.
Once two stores have given each other all their records, the second store what it held before or
what it holds by then, their records have the same times, and they are the same if and only if
there was no page of which the stores held different records of one time. -/
theorem deliveries_agree_iff (hs : s.Reachable) (rs : List Record) :
    (∀ bs, bs.flatten = rs → s.deliver bs = (s.mergeRecords rs).2) ∧
    (∀ bs, bs.flatten.Perm rs → (s.deliver bs).status = (s.mergeRecords rs).2.status ∧
      ∀ h, ((s.deliver bs).record? h).map (·.timestamp) =
        ((s.mergeRecords rs).2.record? h).map (·.timestamp)) ∧
    ((∀ bs, bs.flatten.Perm rs →
      ∀ h, (s.deliver bs).record? h = (s.mergeRecords rs).2.record? h) ↔ s.Untied rs) ∧
    ∀ t : Store, t.Reachable → ∀ bs cs, bs.flatten.Perm t.recordList →
      cs.flatten.Perm s.recordList ∨ cs.flatten.Perm (s.deliver bs).recordList →
      (∀ h, ((s.deliver bs).record? h).map (·.timestamp) =
        ((t.deliver cs).record? h).map (·.timestamp)) ∧
      ((s.deliver bs).records = (t.deliver cs).records ↔
        ∀ h r q, s.record? h = some r → t.record? h = some q → r.timestamp = q.timestamp →
          r = q) := by
  refine ⟨fun bs hbs => by rw [deliver_eq, hbs], fun bs hbs => ?_, ?_, fun t ht bs cs hbs hcs => ?_⟩
  · rw [deliver_eq]
    refine ⟨hs.sound.status_mergeRecords_of_perm hbs, fun h => ?_⟩
    rw [record?_mergeRecords, record?_mergeRecords]
    exact timestamp_foldl_kept_of_perm (ofPage_perm h hbs)
  · rw [untied_iff]
    constructor
    · intro hsame qs hqs h
      rw [← hsame [qs] (by rwa [List.flatten_singleton])]
      rfl
    · intro hsame bs hbs h
      rw [deliver_eq, hsame _ hbs]
  · have hleft (h : ContentHash) := ht.sound.record?_deliver s hbs h
    have hright (h : ContentHash) :
        (t.deliver cs).record? h = received (t.record? h) (s.record? h) := by
      rcases hcs with hcs | hcs
      · exact hs.sound.record?_deliver t hcs h
      · rw [(hs.sound.deliver bs).record?_deliver t hcs, hleft, received_received]
    constructor
    · intro h
      rw [hleft, hright, timestamp_received_comm]
    · simp only [← received_comm_iff, ← hleft, ← hright]
      exact ⟨fun heq h => congrArg (·[h]?) heq, Std.ExtTreeMap.ext_getElem?⟩

/-- Two newer records of the page of a held one, the later of them first, and a record that two
stores hold of different times. -/
theorem deliveries_agree_iff_of_newer :
    let r (t : Time) : Record := ⟨.zero, "u", "t", "s", t⟩
    let a := empty.run [.insert (r 5)]
    let b := empty.run [.insert (r 7)]
    a.Reachable ∧ b.Reachable ∧
      (a.deliver [[r 9], [r 7]]).status = (a.mergeRecords [r 7, r 9]).2.status ∧
      (∀ h, (a.deliver [[r 9], [r 7]]).record? h = (a.mergeRecords [r 7, r 9]).2.record? h) ∧
      (a.deliver [b.recordList]).records =
        (b.deliver [(a.deliver [b.recordList]).recordList]).records := by
  intro r a b
  have ha : a.Reachable := ⟨_, rfl⟩
  have hb : b.Reachable := ⟨_, rfl⟩
  obtain ⟨-, horder, huntied, hexchange⟩ := deliveries_agree_iff ha [r 7, r 9]
  have hswap : [[r 9], [r 7]].flatten.Perm [r 7, r 9] := .swap ..
  have hnine (h : ContentHash) (q : Record)
      (hq : Newest (a.record? h) (ofPage h [r 7, r 9]) q) : q = r 9 := by
    obtain ⟨hmem, hh⟩ := List.mem_filter.mp hq.mem
    have hlatest := hq.latest (r 9)
    grind [ofPage]
  have huntied := huntied.mpr fun h q p hq hp => (hnine h q hq).trans (hnine h p hp).symm
  refine ⟨ha, hb, (horder _ hswap).1, huntied _ hswap, ?_⟩
  have hleft : [b.recordList].flatten.Perm b.recordList := by rw [List.flatten_singleton]
  obtain ⟨-, hsame⟩ := hexchange b hb _ [(a.deliver [b.recordList]).recordList] hleft
    (.inr (by rw [List.flatten_singleton]))
  refine hsame.mpr fun h p q hp hq htime => ?_
  have hp : (empty.insert (r 5)).record? h = some p := hp
  have hq : (empty.insert (r 7)).record? h = some q := hq
  rw [record?_insert] at hp hq
  grind [record?_empty]

/-- Two records of one page and one time, with different titles: the first to come is kept, and two
stores that hold one each still do once each has got the other's. -/
theorem ties_kept_apart :
    let r (title : String) : Record := ⟨.zero, "u", title, "s", 5⟩
    let a := empty.insert (r "a")
    let b := empty.insert (r "b")
    (empty.mergeRecords [r "a", r "b"]).2.record? .zero = some (r "a") ∧
      (empty.mergeRecords [r "b", r "a"]).2.record? .zero = some (r "b") ∧
      (a.deliver [b.recordList]).record? .zero = some (r "a") ∧
      (b.deliver [a.recordList]).record? .zero = some (r "b") ∧
      (a.deliver [b.recordList]).records ≠ (b.deliver [a.recordList]).records := by
  intro r a b
  have ha : (a.deliver [b.recordList]).record? .zero = some (r "a") := by decide +kernel
  have hb : (b.deliver [a.recordList]).record? .zero = some (r "b") := by decide +kernel
  refine ⟨by decide +kernel, by decide +kernel, ha, hb, fun heq => ?_⟩
  have hsame : r "a" = r "b" :=
    Option.some.inj (ha.symm.trans ((congrArg (·[ContentHash.zero]?) heq).trans hb))
  exact absurd (congrArg Record.title hsame) (by decide)

end SearchOverlay.Store
