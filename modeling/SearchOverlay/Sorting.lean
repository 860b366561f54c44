/-!
# Sorting

`sortBy` sorts by insertion, so that what is sorted evaluates in proofs as well. For a total
order it is the library's stable sort, as `sortBy_eq_mergeSort` says.
-/

namespace SearchOverlay

variable {α : Type}

/-- Puts `a` in front of the first element that it may stand before. -/
def insertBy (le : α → α → Bool) (a : α) : List α → List α
  | [] => [a]
  | b :: r => if le a b then a :: b :: r else b :: insertBy le a r

/-- Sorts a list; elements that may stand in either order keep theirs. -/
def sortBy (le : α → α → Bool) : List α → List α
  | [] => []
  | a :: r => insertBy le a (sortBy le r)

theorem insertBy_perm (le : α → α → Bool) (a : α) (as : List α) :
    (insertBy le a as).Perm (a :: as) := by
  induction as with
  | nil => exact .refl _
  | cons b as ih =>
    rw [insertBy]
    split
    · exact .refl _
    · exact (ih.cons b).trans (.swap a b as)

theorem sortBy_perm (le : α → α → Bool) (as : List α) : (sortBy le as).Perm as := by
  induction as with
  | nil => exact .refl _
  | cons a as ih => exact (insertBy_perm le a _).trans (ih.cons a)

theorem insertBy_append {le : α → α → Bool} {a : α} {l r : List α} (hl : ∀ b ∈ l, le a b = false)
    (hr : ∀ b ∈ r, le a b = true) : insertBy le a (l ++ r) = l ++ a :: r := by
  induction l with
  | nil =>
    cases r with
    | nil => rfl
    | cons b r => rw [List.nil_append, insertBy, if_pos (hr b List.mem_cons_self), List.nil_append]
  | cons b l ih =>
    have hb : ¬ le a b = true := by simp [hl b List.mem_cons_self]
    rw [List.cons_append, insertBy, if_neg hb, ih fun c hc => hl c (List.mem_cons_of_mem _ hc),
      List.cons_append]

theorem insertBy_append_of_le {le : α → α → Bool} {a : α} {r : List α}
    (hr : ∀ b ∈ r, le a b = true) (l : List α) :
    insertBy le a (l ++ r) = insertBy le a l ++ r := by
  induction l with
  | nil => exact insertBy_append (fun b hb => nomatch hb) hr
  | cons b l ih =>
    rw [List.cons_append, insertBy, insertBy]
    split
    · rfl
    · rw [ih, List.cons_append]

/-- Lists that may stand one before the other are sorted apart. -/
theorem sortBy_append {le : α → α → Bool} {l r : List α}
    (h : ∀ a ∈ l, ∀ b ∈ r, le a b = true) : sortBy le (l ++ r) = sortBy le l ++ sortBy le r := by
  induction l with
  | nil => rfl
  | cons a l ih =>
    have ha : ∀ b ∈ sortBy le r, le a b = true := fun b hb =>
      h a List.mem_cons_self b ((sortBy_perm le r).mem_iff.mp hb)
    rw [List.cons_append, sortBy, ih fun c hc => h c (List.mem_cons_of_mem _ hc),
      insertBy_append_of_le ha, sortBy]

theorem sortBy_flatMap {β : Type} {le : α → α → Bool} {f : β → List α} {bs : List β}
    (h : bs.Pairwise fun b c => ∀ x ∈ f b, ∀ y ∈ f c, le x y = true) :
    sortBy le (bs.flatMap f) = bs.flatMap fun b => sortBy le (f b) := by
  induction bs with
  | nil => rfl
  | cons b bs ih =>
    obtain ⟨hb, hbs⟩ := List.pairwise_cons.mp h
    have hbefore : ∀ x ∈ f b, ∀ y ∈ bs.flatMap f, le x y = true := by
      intro x hx y hy
      obtain ⟨c, hc, hy⟩ := List.mem_flatMap.mp hy
      exact hb c hc x hx y hy
    rw [List.flatMap_cons, sortBy_append hbefore, ih hbs, List.flatMap_cons]

theorem sortBy_eq_mergeSort {le : α → α → Bool} (trans : ∀ a b c, le a b → le b c → le a c)
    (total : ∀ a b, le a b || le b a) (as : List α) : sortBy le as = as.mergeSort le := by
  induction as with
  | nil => simp [sortBy]
  | cons a as ih =>
    obtain ⟨l, r, hcons, hrest, hl⟩ := List.mergeSort_cons trans total a as
    have hsorted := List.pairwise_mergeSort trans total (a :: as)
    rw [hcons] at hsorted
    have hr := (List.pairwise_cons.mp (List.pairwise_append.mp hsorted).2.1).1
    rw [sortBy, ih, hrest, hcons]
    exact insertBy_append (fun b hb => by simpa using hl b hb) hr

end SearchOverlay
