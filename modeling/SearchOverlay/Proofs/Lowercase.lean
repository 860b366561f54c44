import SearchOverlay.Text.Lowercase

/-!
# Lower case in place

The lower case of a text that stands inside another one differs from its lower case alone at most
in its capital sigmas: what is around the text can decide whether they end a word. A text is
settled if it decides that itself for each of its sigmas. Then its lower case is the same wherever
it stands; any other text has a letter that hides it, set in front of it or behind it.
-/

namespace SearchOverlay.Lowercase

/-- Whether a capital sigma after `before`, nearest first, and before `after` is a final one. -/
def isFinal (before after : List Char) : Bool := casedFirst before && !casedFirst after

/-- Whether case ignores all of the text. -/
def ignorable (cs : List Char) : Bool := cs.all CharSet.caseIgnorable.has

/-- The lower case of a text after `before`, nearest first, and before `after`. -/
def within (before : List Char) (cs after : List Char) : List Char :=
  match cs with
  | [] => []
  | c :: cs => ofChar before c (cs ++ after) ++ within (c :: before) cs after

/-- If case ignores all that is before a capital sigma, a cased letter follows, and if a cased
letter comes before it, case does not ignore all that follows. -/
def Settled (cs : List Char) : Prop :=
  ∀ before after, cs = before ++ 'Σ' :: after →
    (ignorable before → casedFirst after) ∧ (casedFirst before.reverse → ¬ ignorable after)

variable {before after cs xs ys u v : List Char} {c : Char}

/-! ## The first character that counts -/

theorem casedFirst_cons (c : Char) (cs : List Char) : casedFirst (c :: cs) =
    if CharSet.caseIgnorable.has c then casedFirst cs else CharSet.cased.has c := by
  rw [casedFirst, List.dropWhile_cons]
  cases CharSet.caseIgnorable.has c <;> rfl

theorem casedFirst_append (xs ys : List Char) :
    casedFirst (xs ++ ys) = if ignorable xs then casedFirst ys else casedFirst xs := by
  induction xs with
  | nil => rfl
  | cons c xs ih =>
    rw [List.cons_append, casedFirst_cons, casedFirst_cons, ih, ignorable, ignorable, List.all_cons]
    cases CharSet.caseIgnorable.has c <;> rfl

theorem casedFirst_of_ignorable (h : ignorable cs) : casedFirst cs = false := by
  have happend := casedFirst_append cs []
  rwa [List.append_nil, if_pos h] at happend

theorem ignorable_reverse (cs : List Char) : ignorable cs.reverse = ignorable cs :=
  List.all_reverse

theorem ignorable_sigma : CharSet.caseIgnorable.has 'Σ' = false := by decide +kernel

theorem casedFirst_sigma (cs : List Char) : casedFirst ('Σ' :: cs) = true := by
  have hcased : CharSet.cased.has 'Σ' = true := by decide +kernel
  rw [casedFirst_cons, ignorable_sigma, hcased]
  rfl

theorem sigma_not_mem (h : ignorable cs) : 'Σ' ∉ cs := by
  intro hmem
  cases (List.all_eq_true.mp h 'Σ' hmem).symm.trans ignorable_sigma

/-- What is behind a capital sigma does not matter before it. -/
theorem casedFirst_append_sigma (cs xs ys : List Char) :
    casedFirst (cs ++ 'Σ' :: xs) = casedFirst (cs ++ 'Σ' :: ys) := by
  rw [casedFirst_append, casedFirst_append, casedFirst_sigma, casedFirst_sigma]

/-! ## Lower case by parts -/

theorem onto_eq (done before cs : List Char) :
    onto done before cs = done.reverse ++ within before cs [] := by
  induction cs generalizing done before with
  | nil => rw [onto, within, List.append_nil]
  | cons c cs ih =>
    rw [onto, ih, within, List.append_nil, List.reverse_append, List.reverse_reverse,
      List.append_assoc]

theorem ofList_eq (cs : List Char) : ofList cs = within [] cs [] := onto_eq [] [] cs

theorem within_append (before xs ys after : List Char) : within before (xs ++ ys) after =
    within before xs (ys ++ after) ++ within (xs.reverse ++ before) ys after := by
  induction xs generalizing before with
  | nil => rfl
  | cons c xs ih =>
    rw [List.cons_append, within, within, ih, List.append_assoc, List.append_assoc,
      List.reverse_cons, List.append_assoc, List.singleton_append]

theorem ofList_sigma (u v : List Char) : ofList (u ++ 'Σ' :: v) = within [] u ('Σ' :: v) ++
    (if isFinal u.reverse v then 'ς' else 'σ') :: within ('Σ' :: u.reverse) v [] := by
  rw [ofList_eq, within_append, List.append_nil, List.append_nil, within, List.append_nil]
  rfl

theorem within_letter (before cs after : List Char) :
    within before ('A' :: cs) after = 'a' :: within ('A' :: before) cs after := by
  rw [within]
  rfl

/-- The lower case depends on where the text stands through its capital sigmas only. -/
theorem within_congr {before' after' : List Char} (h : ∀ u v, cs = u ++ 'Σ' :: v →
    isFinal (u.reverse ++ before) (v ++ after) = isFinal (u.reverse ++ before') (v ++ after')) :
    within before cs after = within before' cs after' := by
  induction cs generalizing before before' with
  | nil => rfl
  | cons c cs ih =>
    have hhead : ofChar before c (cs ++ after) = ofChar before' c (cs ++ after') := by
      by_cases hc : c = 'Σ'
      · subst hc
        have hsigma : isFinal before (cs ++ after) = isFinal before' (cs ++ after') := h [] cs rfl
        simp only [ofChar, if_true]
        rw [← isFinal, ← isFinal, hsigma]
      · simp only [ofChar, if_neg hc]
    rw [within, within, hhead, ih]
    intro u v hcs
    simpa using h (c :: u) v (congrArg (c :: ·) hcs)

theorem within_of_ignorable (h : ignorable cs) (before after before' after' : List Char) :
    within before cs after = within before' cs after' := by
  refine within_congr fun u v hcs => absurd ?_ (sigma_not_mem h)
  rw [hcs]
  exact List.mem_append_right u List.mem_cons_self

theorem within_before_sigma (before cs xs ys : List Char) :
    within before cs ('Σ' :: xs) = within before cs ('Σ' :: ys) :=
  within_congr fun _ v _ => by rw [isFinal, isFinal, casedFirst_append_sigma v xs ys]

theorem within_after_sigma (xs ys cs after : List Char) :
    within ('Σ' :: xs) cs after = within ('Σ' :: ys) cs after :=
  within_congr fun u _ _ => by rw [isFinal, isFinal, casedFirst_append_sigma u.reverse xs ys]

/-! ## Settled texts -/

theorem forall_split_iff {p : List Char → List Char → Prop} :
    (∀ u v, cs = u ++ c :: v → p u v) ↔
      ∀ n < cs.length, cs[n]? = some c → p (cs.take n) (cs.drop (n + 1)) := by
  constructor
  · intro h n hn hc
    apply h
    rw [← Option.some.inj ((List.getElem?_eq_getElem hn).symm.trans hc),
      ← List.drop_eq_getElem_cons hn, List.take_append_drop]
  · rintro h u v rfl
    have hsplit := h u.length (by simp) (by simp)
    rwa [List.take_left, ← List.drop_drop, List.drop_left] at hsplit

instance : Decidable (Settled cs) := decidable_of_iff _ forall_split_iff.symm

theorem Settled.within_eq (h : Settled cs) (before after : List Char) :
    within before cs after = ofList cs := by
  rw [ofList_eq]
  refine within_congr fun u v hcs => ?_
  obtain ⟨hstart, hend⟩ := h u v hcs
  rw [isFinal, isFinal, List.append_nil, List.append_nil, casedFirst_append, casedFirst_append,
    ignorable_reverse]
  by_cases hu : ignorable u
  · -- a cased letter follows, so the sigma is a final one nowhere
    have hv : ignorable v = false := by
      cases hv : ignorable v with
      | false => rfl
      | true => cases (hstart hu).symm.trans (casedFirst_of_ignorable hv)
    simp [hu, hv, hstart hu]
  · cases hcased : casedFirst u.reverse with
    | false => simp [hu]
    | true => simp [hu, hend hcased]

/-- Where one character is replaced by another one, and none like it is added, it is missed. -/
theorem not_infix_of_replaced {c d : Char} (hne : d ≠ c) (u v : List Char) (hxs : c ∉ xs)
    (hys : c ∉ ys) : ¬ u ++ c :: v <:+: xs ++ (u ++ d :: v) ++ ys := by
  intro hfound
  have hcount := hfound.sublist.count_le c
  rw [List.count_append, List.count_cons_self, List.count_append, List.count_append,
    List.count_append, List.count_cons_of_ne hne, List.count_eq_zero.mpr hxs,
    List.count_eq_zero.mpr hys] at hcount
  omega

/-- A cased letter in front of a text makes its first capital sigma a final one. -/
theorem hidden_after_letter (hu : ignorable u) (hv : casedFirst v = false) :
    ¬ ofList (u ++ 'Σ' :: v) <:+: ofList ('A' :: u ++ 'Σ' :: v) := by
  have halone : isFinal u.reverse v = false := by
    rw [isFinal, casedFirst_of_ignorable (ignorable_reverse u ▸ hu), Bool.false_and]
  have hafter : isFinal ('A' :: u).reverse v = true := by
    rw [isFinal, List.reverse_cons, casedFirst_append, ignorable_reverse, if_pos hu, hv]
    decide +kernel
  rw [ofList_sigma, ofList_sigma, halone, hafter, within_letter,
    within_of_ignorable hu ['A'] _ [] ('Σ' :: v), within_after_sigma ('A' :: u).reverse u.reverse]
  have hmissed := not_infix_of_replaced (by decide : 'ς' ≠ 'σ') (within [] u ('Σ' :: v))
    (within ('Σ' :: u.reverse) v []) (by decide : 'σ' ∉ ['a']) List.not_mem_nil
  rwa [List.append_nil] at hmissed

/-- A cased letter behind a text keeps its last capital sigma from being a final one. -/
theorem hidden_before_letter (hu : casedFirst u.reverse) (hv : ignorable v) :
    ¬ ofList (u ++ 'Σ' :: v) <:+: ofList (u ++ 'Σ' :: (v ++ ['A'])) := by
  have halone : isFinal u.reverse v = true := by
    rw [isFinal, hu, casedFirst_of_ignorable hv]
    rfl
  have hbefore : isFinal u.reverse (v ++ ['A']) = false := by
    rw [isFinal, casedFirst_append, if_pos hv, hu]
    decide +kernel
  rw [ofList_sigma, ofList_sigma, halone, hbefore, within_append, within_letter,
    within_before_sigma [] u (v ++ ['A']) v,
    within_of_ignorable hv _ (['A'] ++ []) ('Σ' :: u.reverse) []]
  have hmissed := not_infix_of_replaced (by decide : 'σ' ≠ 'ς') (within [] u ('Σ' :: v))
    (within ('Σ' :: u.reverse) v []) List.not_mem_nil (by decide : 'ς' ∉ ['a'])
  simpa [within] using hmissed

/-- Unless a text is settled, some text that contains it does not contain its lower case when it is
put in lower case itself. -/
theorem exists_hidden (h : ¬ Settled cs) :
    ∃ text, cs <:+: text ∧ ¬ ofList cs <:+: ofList text := by
  apply Classical.byContradiction
  intro hnone
  refine h fun u v hcs => ⟨fun hu => ?_, fun hu hv => ?_⟩
  · apply Classical.byContradiction
    intro hv
    refine hnone ⟨'A' :: u ++ 'Σ' :: v, ⟨['A'], [], by simp [hcs]⟩, hcs ▸ ?_⟩
    exact hidden_after_letter hu (Bool.eq_false_iff.mpr hv)
  · refine hnone ⟨u ++ 'Σ' :: (v ++ ['A']), ⟨[], ['A'], by simp [hcs]⟩, hcs ▸ ?_⟩
    exact hidden_before_letter hu hv

end SearchOverlay.Lowercase
