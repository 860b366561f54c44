import Mathlib.Data.List.Induction
import Mathlib.Data.List.Nodup
import SearchOverlay.Proofs.Bucket.Held

/-!
# Overflow

Whoever is new to a full bucket without stale contacts is left to wait. There is not room for all:
`Latest` says that those who wait are the first ones when all that were offered are ranked by when
they were seen. The order of the offers decides only between contacts seen at the same time.
-/

namespace SearchOverlay.Bucket

variable {now : Time} {c old : Contact} {l r offered offered' kept kept' : List Contact}
  {b b' : Bucket} {o : PushOutcome}

/-- The contacts seen last of those offered, as many as there is room for, the last one first. -/
def Latest (offered kept : List Contact) : Prop :=
  ∃ ranking : List Contact,
    ranking.Perm offered ∧ SortedBySeen ranking ∧ kept = ranking.take capacity

theorem latest_nil : Latest [] [] := ⟨[], .refl [], .nil, rfl⟩

theorem Latest.subset (h : Latest offered kept) : kept ⊆ offered := by
  obtain ⟨ranking, hperm, -, rfl⟩ := h
  exact fun d hd => hperm.subset (List.mem_of_mem_take hd)

theorem Latest.perm_of_room (h : Latest offered kept) (hroom : kept.length < capacity) :
    kept.Perm offered := by
  obtain ⟨ranking, hperm, -, rfl⟩ := h
  have hle : ranking.length ≤ capacity := by
    rw [List.length_take] at hroom
    omega
  rwa [List.take_of_length_le hle]

/-! ## One more contact -/

/-- The dropped contact is the newcomer or was kept before. So what lies below all that were kept
lies below all that stay. -/
theorem le_of_dropped (hsplit : kept ++ [c] = l ++ old :: r)
    (hl : ∀ d ∈ l, old.lastSeen < d.lastSeen) (hr : ∀ d ∈ r, old.lastSeen ≤ d.lastSeen) {v : Time}
    (hkept : ∀ d ∈ kept, v ≤ d.lastSeen) : ∀ d ∈ l ++ r, v ≤ d.lastSeen := by
  intro d hd
  rcases List.eq_nil_or_concat' r with rfl | ⟨r', e, rfl⟩
  · obtain ⟨rfl, -⟩ := List.append_inj' hsplit rfl
    exact hkept d (by simpa using hd)
  · rw [← List.cons_append, ← List.append_assoc] at hsplit
    obtain ⟨rfl, -⟩ := List.append_inj' hsplit rfl
    have hold : v ≤ old.lastSeen := hkept old (by simp)
    rcases List.mem_append.mp hd with hd | hd
    · exact UInt64.le_trans hold (UInt64.le_of_lt (hl d hd))
    · exact UInt64.le_trans hold (hr d hd)

theorem Latest.step (h : Latest offered kept) (hnew : c.identity ∉ ids kept)
    (s : DeferStep now c kept kept') : Latest (offered ++ [c]) kept' := by
  cases s with
  | renewed named first => exact absurd (by simp [← named]) hnew
  | added new room =>
    refine ⟨sortBySeen (kept ++ [c]), ?_, sortedBySeen_sortBySeen _, ?_⟩
    · exact (sortBySeen_perm _).trans ((h.perm_of_room room).append_right [c])
    · refine (List.take_of_length_le ?_).symm
      rw [length_sortBySeen, List.length_append]
      exact room
  | @dropped _ l old r new full split before after =>
    obtain ⟨ranking, hperm, hsorted, rfl⟩ := h
    rw [← List.take_append_drop capacity ranking] at hsorted
    obtain ⟨-, -, hacross⟩ := List.pairwise_append.mp hsorted
    have hstay : ∀ d ∈ l ++ r, old.lastSeen ≤ d.lastSeen := fun d hd =>
      (List.mem_append.mp hd).elim (fun hd => UInt64.le_of_lt (before d hd)) (after d)
    have hgone : ∀ e ∈ ranking.drop capacity, ∀ d ∈ l ++ r, e.lastSeen ≤ d.lastSeen :=
      fun e he => le_of_dropped split before after fun d hd => hacross d hd e he
    refine ⟨sortBySeen (l ++ r) ++ sortBySeen (old :: ranking.drop capacity), ?_, ?_, ?_⟩
    · refine ((sortBySeen_perm _).append (sortBySeen_perm _)).trans ?_
      refine (promote_perm l r _ old).symm.trans ?_
      rw [← split, List.append_assoc]
      refine (List.perm_append_comm.append_left _).trans ?_
      rw [← List.append_assoc, List.take_append_drop]
      exact hperm.append_right [c]
    · refine List.pairwise_append.mpr
        ⟨sortedBySeen_sortBySeen _, sortedBySeen_sortBySeen _, fun d hd e he => ?_⟩
      rw [mem_sortBySeen] at hd he
      rcases List.mem_cons.mp he with rfl | he
      · exact hstay d hd
      · exact hgone e he d hd
    · refine (List.take_left' ?_).symm
      have hlength := congrArg List.length split
      simp at hlength full ⊢
      omega

/-! ## What is kept in the end -/

theorem Latest.lastSeen_eq (h : Latest offered kept) :
    kept.map (·.lastSeen) =
      ((offered.map (·.lastSeen)).mergeSort fun v w => w ≤ v).take capacity := by
  obtain ⟨ranking, hperm, hsorted, rfl⟩ := h
  have htrans : ∀ u v w : Time, decide (v ≤ u) → decide (w ≤ v) → decide (w ≤ u) := by
    simp only [decide_eq_true_eq]
    exact fun u v w huv hvw => UInt64.le_trans hvw huv
  have htotal : ∀ v w : Time, decide (w ≤ v) || decide (v ≤ w) := by
    simp only [Bool.or_eq_true, decide_eq_true_eq]
    exact fun v w => UInt64.le_total w v
  have hdescending : ((offered.map (·.lastSeen)).mergeSort fun v w => w ≤ v).Pairwise
      fun v w => w ≤ v :=
    (List.pairwise_mergeSort htrans htotal _).imp of_decide_eq_true
  have hsame : (ranking.map (·.lastSeen)).Perm
      ((offered.map (·.lastSeen)).mergeSort fun v w => w ≤ v) :=
    (hperm.map _).trans (List.mergeSort_perm ..).symm
  have htimes := hsame.eq_of_pairwise (fun v w _ _ hvw hwv => UInt64.le_antisymm hwv hvw)
    (List.pairwise_map.mpr hsorted) hdescending
  rw [List.map_take, htimes]

/-- If no two contacts were seen at the same time, the order of the offers does not matter. -/
theorem Latest.unique (h : Latest offered kept) (h' : Latest offered' kept')
    (hperm : offered'.Perm offered) (hapart : (offered.map (·.lastSeen)).Nodup) : kept' = kept := by
  obtain ⟨ranking, hranking, hsorted, rfl⟩ := h
  obtain ⟨ranking', hranking', hsorted', rfl⟩ := h'
  have hsame : ranking'.Perm offered := hranking'.trans hperm
  rw [List.Perm.eq_of_pairwise (fun d e hd he hde hed => ?_) hsorted' hsorted
    (hsame.trans hranking.symm)]
  exact List.inj_on_of_nodup_map hapart (hsame.subset hd) (hranking.subset he)
    (UInt64.le_antisymm hed hde)

/-! ## Offers -/

/-- Offers contacts one after the other, each at its time. -/
def pushEach (ps : List (Time × Contact)) (b : Bucket) : Bucket :=
  ps.foldl (fun b p => (b.push p.1 p.2).2) b

@[simp] theorem pushEach_nil (b : Bucket) : b.pushEach [] = b := rfl

theorem pushEach_cons (p : Time × Contact) (ps : List (Time × Contact)) (b : Bucket) :
    b.pushEach (p :: ps) = (b.push p.1 p.2).2.pushEach ps := rfl

theorem pushEach_append (ps qs : List (Time × Contact)) (b : Bucket) :
    b.pushEach (ps ++ qs) = (b.pushEach ps).pushEach qs := List.foldl_append

theorem pushEach_concat (ps : List (Time × Contact)) (p : Time × Contact) (b : Bucket) :
    b.pushEach (ps ++ [p]) = ((b.pushEach ps).push p.1 p.2).2 := pushEach_append ps [p] b

/-- No place is free among the active contacts, and none of them is stale. -/
structure Crowded (b : Bucket) : Prop where
  full : capacity ≤ b.active.length
  fine : ∀ d ∈ b.active, d.staleCount.toNat < staleThreshold

/-- Nobody is active or there twice. -/
structure Newcomers (b : Bucket) (cs : List Contact) : Prop where
  new : ∀ c ∈ cs, c.identity ∉ ids b.active
  once : (ids cs).Nodup

theorem Newcomers.sublist (h : b.Newcomers offered) (hsub : offered'.Sublist offered) :
    b.Newcomers offered' :=
  ⟨fun c hc => h.new c (hsub.mem hc), h.once.sublist (hsub.map _)⟩

theorem Newcomers.perm (h : b.Newcomers offered) (hperm : offered'.Perm offered) :
    b.Newcomers offered' :=
  ⟨fun c hc => h.new c (hperm.mem_iff.mp hc), (hperm.map _).nodup_iff.mpr h.once⟩

theorem PushStep.waits (s : PushStep now c b o b') (hb : b.Crowded)
    (hnew : c.identity ∉ ids b.active) :
    o = .deferred ∧ b'.active = b.active ∧ DeferStep now c b.replacements b'.replacements := by
  cases s with
  | refreshed named first => exact absurd (by simp [← named]) hnew
  | inserted new room => exact absurd room (Nat.not_lt_of_le hb.full)
  | @replaced _ l old r rs new full stale before after =>
    exact absurd stale (Nat.not_le_of_lt (hb.fine old (by simp)))
  | deferred new full fine wait => exact ⟨rfl, rfl, wait⟩

theorem PushStep.queued (s : PushStep now c b o b') (hb : b.Crowded)
    (hnew : c.identity ∉ ids b.active) (hwait : c.identity ∉ ids b.replacements)
    (hroom : b.replacements.length < capacity) :
    o = .deferred ∧ b' = { b with replacements := sortBySeen (b.replacements ++ [c]) } := by
  obtain ⟨ho, hactive, hstep⟩ := s.waits hb hnew
  have hheight : b'.height = b.height := UInt8.toNat_inj.mp s.height
  rw [← hstep.eq_of_room hwait hroom, ← hheight, ← hactive]
  exact ⟨ho, rfl⟩

theorem Crowded.congr (hb : b.Crowded) (h : b'.active = b.active) : b'.Crowded :=
  ⟨h ▸ hb.full, h ▸ hb.fine⟩

theorem Crowded.pushEach (hb : b.Crowded) (hnone : b.replacements = [])
    {ps : List (Time × Contact)} (h : b.Newcomers (ps.map (·.2))) :
    (b.pushEach ps).active = b.active ∧
      Latest (ps.map (·.2)) (b.pushEach ps).replacements := by
  induction ps using List.reverseRecOn with
  | nil =>
    rw [pushEach_nil, hnone]
    exact ⟨rfl, latest_nil⟩
  | append_singleton ps p ih =>
    rw [List.map_append] at h ⊢
    obtain ⟨hactive, hlatest⟩ := ih (h.sublist (List.sublist_append_left _ _))
    have hnew : p.2.identity ∉ ids b.active := h.new p.2 (by simp)
    have hwait : p.2.identity ∉ ids (b.pushEach ps).replacements := fun hmem =>
      not_mem_ids_of_nodup h.once (List.map_subset _ hlatest.subset hmem)
    obtain ⟨-, hactive', hstep⟩ :=
      (push_step p.1 p.2 (b.pushEach ps)).waits (hb.congr hactive) (hactive ▸ hnew)
    rw [pushEach_concat]
    exact ⟨hactive'.trans hactive, hlatest.step hwait hstep⟩

/-- Contacts that are new to a full bucket without stale contacts are all left to wait, and the
active ones stay as they are. Those that wait in the end are as many of the ones seen last as there
is room for, the last one first; if no two were seen at the same time, they do not depend on the
order of the offers. -/
theorem overflow_keeps_latest (hfull : b.isFull = true) (hnone : b.replacements = [])
    (hfine : ∀ d ∈ b.active, d.staleCount.toNat < 5) (ps : List (Time × Contact))
    (hnew : ∀ p ∈ ps, p.2.identity ∉ ids b.active) (honce : (ids (ps.map (·.2))).Nodup) :
    (∀ qs now c, qs ++ [(now, c)] <+: ps → ((b.pushEach qs).push now c).1 = .deferred ∧
      (b.pushEach (qs ++ [(now, c)])).active = b.active) ∧
    (b.pushEach ps).replacements.map (·.lastSeen) =
      ((ps.map (·.2.lastSeen)).mergeSort fun v w => w ≤ v).take 20 ∧
    ((ps.map (·.2.lastSeen)).Nodup → ∀ ps' : List (Time × Contact),
      (ps'.map (·.2)).Perm (ps.map (·.2)) →
      (b.pushEach ps').replacements = (b.pushEach ps).replacements) := by
  have hb : b.Crowded := ⟨Nat.le_of_eq (of_decide_eq_true hfull).symm, hfine⟩
  have hps : b.Newcomers (ps.map (·.2)) :=
    ⟨List.forall_mem_map.mpr hnew, honce⟩
  have hlatest := (hb.pushEach hnone hps).2
  have htimes : (ps.map (·.2)).map (·.lastSeen) = ps.map (·.2.lastSeen) := List.map_map ..
  refine ⟨fun qs now c hpre => ?_, ?_, fun hapart ps' hperm => ?_⟩
  · have hqs := hps.sublist (hpre.sublist.map _)
    have hafter := (hb.pushEach hnone hqs).1
    rw [List.map_append] at hqs
    have hbefore := (hb.pushEach hnone (hqs.sublist (List.sublist_append_left _ _))).1
    have hc : c.identity ∉ ids b.active := hqs.new c (by simp)
    exact ⟨((push_step now c _).waits (hb.congr hbefore) (hbefore ▸ hc)).1, hafter⟩
  · rw [hlatest.lastSeen_eq, htimes]
    rfl
  · exact hlatest.unique (hb.pushEach hnone (hps.perm hperm)).2 hperm (htimes ▸ hapart)

/-- Twenty active contacts, and twenty-two that come after them, each seen at a time of its own. -/
theorem overflow_keeps_latest_of_reverse :
    let contact (n : Nat) : Contact :=
      ⟨⟨0x80000000, 0, 0, 0, UInt32.ofNat n⟩, "p", UInt64.ofNat (n * 7 % 23), 4⟩
    let b : Bucket := ⟨159, (List.range 20).map contact, []⟩
    let ps : List (Time × Contact) := (List.range' 20 22).map fun n => (1000, contact n)
    ((b.pushEach (ps.take 21)).push 1000 (contact 41)).1 = .deferred ∧
      (b.pushEach ps).replacements.length = 20 ∧
      (b.pushEach ps.reverse).replacements = (b.pushEach ps).replacements := by
  intro contact b ps
  obtain ⟨hfull, hfine, hnew, honce, hapart⟩ : b.isFull = true ∧
      (∀ d ∈ b.active, d.staleCount.toNat < 5) ∧ (∀ p ∈ ps, p.2.identity ∉ ids b.active) ∧
      (ids (ps.map (·.2))).Nodup ∧ (ps.map (·.2.lastSeen)).Nodup := by
    decide +kernel
  have hlast : ps.take 21 ++ [(1000, contact 41)] <+: ps := by decide +kernel
  obtain ⟨hdeferred, hkept, hsame⟩ := overflow_keeps_latest hfull rfl hfine ps hnew honce
  refine ⟨(hdeferred _ _ _ hlast).1, ?_, hsame hapart _ ?_⟩
  · have hlength := congrArg List.length hkept
    rwa [List.length_map, List.length_take, List.length_mergeSort, List.length_map] at hlength
  · exact (List.reverse_perm ps).map _

end SearchOverlay.Bucket
