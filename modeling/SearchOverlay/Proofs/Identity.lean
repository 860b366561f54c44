import Mathlib.Data.Nat.Bitwise
import SearchOverlay.Identity

/-!
# Identities as numbers

The order of identities, which looks at one word after the other, is that of the numbers whose
words they are. So distances may be compared as numbers, and no two identities are equally far
from a third one. The height of a distance is the binary logarithm of its number: of two distances
with different heights the higher one is the longer one.
-/

namespace SearchOverlay.Identity

/-- A number is compared by what stands before its lowest word, and by that word if the rest is
equal. -/
theorem compare_shift (n m : Nat) (v w : UInt32) :
    compare (n * UInt32.size + v.toNat) (m * UInt32.size + w.toNat) =
      (compare n m).then (compare v w) := by
  have hv : v.toNat < UInt32.size := v.toNat_lt
  have hw : w.toNat < UInt32.size := w.toNat_lt
  simp only [UInt32.size] at hv hw ⊢
  rcases Nat.lt_trichotomy n m with hlt | rfl | hgt
  · rw [Nat.compare_eq_lt.mpr hlt, Nat.compare_eq_lt.mpr (by omega)]
    rfl
  · rw [Nat.compare_eq_eq.mpr rfl, Ordering.eq_then]
    rcases Nat.lt_trichotomy v.toNat w.toNat with hlt | heq | hgt
    · rw [Std.compare_eq_lt.mpr (UInt32.lt_iff_toNat_lt.mpr hlt), Nat.compare_eq_lt.mpr (by omega)]
    · rw [Std.compare_eq_iff_eq.mpr (UInt32.toNat_inj.mp heq), Nat.compare_eq_eq.mpr (by omega)]
    · rw [Std.compare_eq_gt.mpr (UInt32.lt_iff_toNat_lt.mpr hgt), Nat.compare_eq_gt.mpr (by omega)]
  · rw [Nat.compare_eq_gt.mpr hgt, Nat.compare_eq_gt.mpr (by omega)]
    rfl

theorem compare_eq_compare_toNat (a b : Identity) : compare a b = compare a.toNat b.toNat := by
  simp only [toNat, words, List.foldl_cons, List.foldl_nil, compare_shift, Ordering.then_assoc]
  rfl

theorem eq_of_compare_eq {a b : Identity} (h : compare a b = .eq) : a = b := by
  obtain ⟨a0, a1, a2, a3, a4⟩ := a
  obtain ⟨b0, b1, b2, b3, b4⟩ := b
  change (compare a0 b0).then ((compare a1 b1).then ((compare a2 b2).then
    ((compare a3 b3).then (compare a4 b4)))) = .eq at h
  simp only [Ordering.then_eq_eq, Std.compare_eq_iff_eq] at h
  obtain ⟨rfl, rfl, rfl, rfl, rfl⟩ := h
  rfl

theorem eq_of_toNat_eq {a b : Identity} (h : a.toNat = b.toNat) : a = b :=
  eq_of_compare_eq (by rw [compare_eq_compare_toNat, Nat.compare_eq_eq.mpr h])

theorem xor_right_cancel {a b c : Identity} (h : a.xor c = b.xor c) : a = b := by
  rw [← xor_xor_cancel a c, h, xor_xor_cancel]

/-! ## Heights -/

/-- One more word at the low end. -/
theorem log2_shift {n : Nat} (hn : n ≠ 0) (w : UInt32) :
    (n * UInt32.size + w.toNat).log2 = n.log2 + 32 := by
  have hw : w.toNat < UInt32.size := w.toNat_lt
  have hne : n * UInt32.size + w.toNat ≠ 0 := by
    simp only [UInt32.size]
    omega
  rw [Nat.log2_eq_iff hne]
  constructor
  · calc 2 ^ (n.log2 + 32) = 2 ^ n.log2 * UInt32.size := Nat.pow_add ..
      _ ≤ n * UInt32.size := Nat.mul_le_mul_right _ (Nat.log2_self_le hn)
      _ ≤ n * UInt32.size + w.toNat := Nat.le_add_right ..
  · calc n * UInt32.size + w.toNat < n * UInt32.size + UInt32.size := by omega
      _ = (n + 1) * UInt32.size := (Nat.succ_mul ..).symm
      _ ≤ 2 ^ (n.log2 + 1) * UInt32.size := Nat.mul_le_mul_right _ Nat.lt_log2_self
      _ = 2 ^ (n.log2 + 32 + 1) := by rw [Nat.add_right_comm, Nat.pow_add _ _ 32]

theorem log2_foldl {n : Nat} (hn : n ≠ 0) (ws : List UInt32) :
    (ws.foldl (fun n w => n * UInt32.size + w.toNat) n).log2 = 32 * ws.length + n.log2 := by
  induction ws generalizing n with
  | nil => simp
  | cons w ws ih =>
    have hne : n * UInt32.size + w.toNat ≠ 0 := by
      simp only [UInt32.size]
      omega
    rw [List.foldl_cons, ih hne, log2_shift hn, List.length_cons]
    omega

theorem wordsHeight_eq_log2 (ws : List UInt32) :
    wordsHeight ws = (ws.foldl (fun n w => n * UInt32.size + w.toNat) 0).log2 := by
  induction ws with
  | nil => rfl
  | cons w ws ih =>
    rw [wordsHeight, List.foldl_cons, Nat.zero_mul, Nat.zero_add]
    split
    · next h =>
      rw [ih, h]
      rfl
    · next h => exact (log2_foldl (fun h0 => h (UInt32.toNat_inj.mp h0)) ws).symm

theorem height_eq_log2 (a : Identity) : a.height = a.toNat.log2 := wordsHeight_eq_log2 a.words

theorem toNat_lt_of_height_lt {a b : Identity} (h : a.height < b.height) : a.toNat < b.toNat := by
  rw [height_eq_log2, height_eq_log2] at h
  have hb : b.toNat ≠ 0 := by
    intro h0
    rw [h0] at h
    exact Nat.not_lt_zero _ h
  by_cases ha : a.toNat = 0
  · omega
  · exact Nat.lt_of_lt_of_le ((Nat.log2_lt ha).mp h) (Nat.log2_self_le hb)

/-! ## Heights of differences -/

/-- Below the lowest word of a number stand the bits of that word. -/
theorem testBit_shift (n : Nat) (w : UInt32) (i : Nat) :
    (n * UInt32.size + w.toNat).testBit i =
      if i < 32 then w.toNat.testBit i else n.testBit (i - 32) := by
  rw [Nat.mul_comm]
  exact Nat.testBit_two_pow_mul_add n w.toNat_lt i

theorem xor_shift (n m : Nat) (v w : UInt32) :
    (n * UInt32.size + v.toNat) ^^^ (m * UInt32.size + w.toNat) =
      (n ^^^ m) * UInt32.size + (v ^^^ w).toNat := by
  apply Nat.eq_of_testBit_eq
  intro i
  rw [Nat.testBit_xor, testBit_shift, testBit_shift, testBit_shift]
  split
  · rw [UInt32.toNat_xor, Nat.testBit_xor]
  · rw [Nat.testBit_xor]

theorem toNat_xor (a b : Identity) : (a.xor b).toNat = a.toNat ^^^ b.toNat := by
  simp only [toNat, words, xor, List.foldl_cons, List.foldl_nil, xor_shift, Nat.xor_self]

/-- The higher one of two numbers decides how high their difference is. -/
theorem log2_xor_of_lt {m n : Nat} (h : m.log2 < n.log2) : (m ^^^ n).log2 = n.log2 := by
  have hn : n ≠ 0 := by
    rintro rfl
    exact Nat.not_lt_zero _ h
  have hlt : m < 2 ^ n.log2 :=
    Nat.lt_of_lt_of_le Nat.lt_log2_self (Nat.pow_le_pow_right Nat.two_pos h)
  have hbit : (m ^^^ n).testBit n.log2 = true := by
    rw [Nat.testBit_xor, Nat.testBit_lt_two_pow hlt, Nat.testBit_log2 hn, Bool.false_xor]
  have hle := Nat.ge_two_pow_of_testBit hbit
  have hne : m ^^^ n ≠ 0 := Nat.ne_of_gt (Nat.lt_of_lt_of_le (Nat.two_pow_pos _) hle)
  refine (Nat.log2_eq_iff hne).mpr ⟨hle, Nat.xor_lt_two_pow ?_ Nat.lt_log2_self⟩
  exact Nat.lt_of_lt_of_le hlt (Nat.pow_le_pow_right Nat.two_pos (Nat.le_succ _))

/-- Numbers of one height differ in lower bits only. -/
theorem log2_xor_lt {m n : Nat} (hm : m ≠ 0) (hn : n ≠ 0) (h : m.log2 = n.log2) (hne : m ≠ n) :
    (m ^^^ n).log2 < n.log2 := by
  rw [Nat.log2_lt (Nat.xor_ne_zero_iff.mpr hne)]
  refine Nat.lt_pow_two_of_testBit _ fun i hi => ?_
  rw [Nat.testBit_xor]
  rcases Nat.eq_or_lt_of_le hi with rfl | hlt
  · rw [Nat.testBit_log2 hn, ← h, Nat.testBit_log2 hm, Bool.xor_self]
  · have habove : ∀ k : Nat, k.log2 = n.log2 → k.testBit i = false := fun k hk =>
      Nat.testBit_lt_two_pow (Nat.lt_of_lt_of_le Nat.lt_log2_self
        (Nat.pow_le_pow_right Nat.two_pos (hk ▸ hlt)))
    rw [habove m h, habove n rfl, Bool.xor_self]

theorem toNat_ne_zero {a : Identity} (h : a ≠ zero) : a.toNat ≠ 0 := fun h0 => h (eq_of_toNat_eq h0)

theorem height_xor_of_lt {a b : Identity} (h : a.height < b.height) :
    (a.xor b).height = b.height := by
  simp only [height_eq_log2, toNat_xor] at h ⊢
  exact log2_xor_of_lt h

theorem height_xor_lt {a b : Identity} (ha : a ≠ zero) (hb : b ≠ zero) (h : a.height = b.height)
    (hne : a ≠ b) : (a.xor b).height < b.height := by
  simp only [height_eq_log2, toNat_xor] at h ⊢
  exact log2_xor_lt (toNat_ne_zero ha) (toNat_ne_zero hb) h fun e => hne (eq_of_toNat_eq e)

/-- Two identities are as far apart as their distances from a third one differ. -/
theorem xor_xor_xor (a b c : Identity) : (a.xor c).xor (b.xor c) = a.xor b := by
  apply eq_of_toNat_eq
  simp only [toNat_xor]
  rw [Nat.xor_comm b.toNat, Nat.xor_assoc, ← Nat.xor_assoc c.toNat, Nat.xor_self, Nat.zero_xor]

theorem xor_eq_zero_iff {a b : Identity} : a.xor b = zero ↔ a = b := by
  constructor
  · exact fun h => xor_right_cancel (h.trans (xor_self b).symm)
  · rintro rfl
    exact xor_self a

/-! ## The number that the bytes write -/

variable {a b : Identity}

theorem ofBigEndian_flatMap (ws : List UInt32) (n : Nat) :
    n * 256 ^ (ws.flatMap Bytes.bigEndianOfWord).length +
      Bytes.ofBigEndian (ws.flatMap Bytes.bigEndianOfWord) =
      ws.foldl (fun n w => n * UInt32.size + w.toNat) n := by
  induction ws generalizing n with
  | nil => simp [Bytes.ofBigEndian, Bytes.ofLittleEndian]
  | cons w ws ih =>
    have hw : w.toNat < 256 ^ 4 := w.toNat_lt
    rw [List.foldl_cons, ← ih, List.flatMap_cons, Bytes.ofBigEndian_append,
      Bytes.bigEndianOfWord, Bytes.ofBigEndian_bigEndian, Nat.mod_eq_of_lt hw,
      List.length_append, Bytes.length_bigEndian, Nat.pow_add, Nat.add_mul, ← Nat.mul_assoc,
      Nat.add_assoc]

theorem ofBigEndian_toBytes (a : Identity) : Bytes.ofBigEndian a.toBytes = a.toNat := by
  have h := ofBigEndian_flatMap a.words 0
  rwa [Nat.zero_mul, Nat.zero_add] at h

theorem toNat_lt_two_pow (a : Identity) : a.toNat < 2 ^ idBits := by
  have h := Bytes.ofBigEndian_lt a.toBytes
  rwa [ofBigEndian_toBytes, length_toBytes] at h

theorem toBytes_of_ofBytes? {bs : Bytes} (h : ofBytes? bs = some a) : a.toBytes = bs := by
  rw [ofBytes?] at h
  split at h
  · next hlen =>
    rw [idBytes] at hlen
    have hwords : a.words = (List.range 5).map
        fun i => Bytes.wordOfBigEndian ((bs.drop (4 * i)).take 4) := by
      rw [← Option.some.inj h]
      rfl
    have hpiece : ∀ i ∈ List.range 5, Bytes.bigEndianOfWord
        (Bytes.wordOfBigEndian ((bs.drop (4 * i)).take 4)) = (bs.drop (4 * i)).take 4 := by
      intro i hi
      have hi := List.mem_range.mp hi
      apply Bytes.bigEndianOfWord_wordOfBigEndian
      rw [List.length_take, List.length_drop]
      omega
    rw [toBytes, hwords, List.flatMap_map, List.flatMap_def, List.map_congr_left hpiece,
      ← List.flatMap_def, Bytes.flatMap_range_take, List.take_of_length_le (by omega)]
  · cases h

theorem ofBytes?_eq_some_iff {bs : Bytes} : ofBytes? bs = some a ↔ a.toBytes = bs :=
  ⟨toBytes_of_ofBytes?, fun h => h ▸ ofBytes?_toBytes a⟩

theorem isSome_ofBytes?_iff {bs : Bytes} : (ofBytes? bs).isSome ↔ bs.length = idBytes := by
  rw [ofBytes?]
  split <;> simp [*]

/-! ## The order and the distance of numbers -/

theorem wordsLess_cons_iff {v w : UInt32} {vs ws : List UInt32} :
    wordsLess (v :: vs) (w :: ws) ↔ v < w ∨ v = w ∧ wordsLess vs ws := by
  rw [wordsLess]
  split
  · next h => simp [h, UInt32.lt_irrefl]
  · next h => simp [h]

theorem lessThan_iff : a.lessThan b ↔ a.toNat < b.toNat := by
  rw [← Nat.compare_eq_lt, ← compare_eq_compare_toNat]
  show _ ↔ (compare a.w0 b.w0).then ((compare a.w1 b.w1).then
    ((compare a.w2 b.w2).then ((compare a.w3 b.w3).then (compare a.w4 b.w4)))) = .lt
  have hnil : wordsLess [] [] = false := rfl
  simp only [lessThan, words, wordsLess_cons_iff, hnil, Ordering.then_eq_lt, Std.compare_eq_lt,
    Std.compare_eq_iff_eq, Bool.false_eq_true, and_false, or_false]

theorem height_eq_iff (ha : a ≠ zero) {h : Nat} :
    a.height = h ↔ 2 ^ h ≤ a.toNat ∧ a.toNat < 2 ^ (h + 1) := by
  rw [height_eq_log2, Nat.log2_eq_iff (toNat_ne_zero ha)]

theorem height_le_of_toNat_le (h : a.toNat ≤ b.toNat) : a.height ≤ b.height :=
  Nat.le_of_not_lt fun hlt => Nat.not_le_of_lt (toNat_lt_of_height_lt hlt) h

theorem xor_eq_iff {d : Identity} : a.xor b = d ↔ b = a.xor d := by
  constructor
  · rintro rfl
    rw [xor_comm a b, xor_comm, xor_xor_cancel]
  · rintro rfl
    rw [xor_comm a d, xor_comm, xor_xor_cancel]

/-- Without its carries a sum is not larger. -/
theorem xor_le_add (m n : Nat) : m ^^^ n ≤ m + n := by
  induction m using Nat.strongRecOn generalizing n with
  | _ m ih =>
    by_cases hm : m = 0
    · rw [hm, Nat.zero_xor, Nat.zero_add]
    · have hhalf : (m ^^^ n) / 2 ≤ m / 2 + n / 2 := by
        rw [Nat.xor_div_two]
        exact ih (m / 2) (by omega) (n / 2)
      have hbit : (m ^^^ n) % 2 = (m + n) % 2 := Nat.xor_mod_two_eq
      omega

theorem toNat_xor_le (a b c : Identity) :
    (a.xor c).toNat ≤ (a.xor b).toNat + (b.xor c).toNat := by
  have hsum : (a.xor c).toNat = (a.xor b).toNat ^^^ (b.xor c).toNat := by
    rw [← toNat_xor, xor_comm b c, xor_xor_xor]
  rw [hsum]
  exact xor_le_add ..

/-- An identity and its 20 bytes determine each other, and of the numbers that the bytes write, the
most significant first, hold: both ways to compare identities compare them, the height of a number
other than zero is the place of its highest bit, a larger number has no smaller height, and the
number of the difference is a metric in which one identity lies at each distance from another. -/
theorem ordered_as_numbers :
    let number (a : Identity) : Nat := Bytes.ofBigEndian a.toBytes
    (∀ a bs, ofBytes? bs = some a ↔ a.toBytes = bs) ∧
    (∀ bs, (ofBytes? bs).isSome ↔ bs.length = idBytes) ∧
    (∀ a, number a < 2 ^ idBits) ∧
    (∀ a b : Identity, a.lessThan b ↔ number a < number b) ∧
    (∀ a b : Identity, compare a b = compare (number a) (number b)) ∧
    (∀ a, a ≠ zero → ∀ h, a.height = h ↔
      h < idBits ∧ 2 ^ h ≤ number a ∧ number a < 2 ^ (h + 1)) ∧
    (∀ a b, number a ≤ number b → a.height ≤ b.height) ∧
    (∀ a b, number (xor a b) = 0 ↔ a = b) ∧
    (∀ a b, number (xor a b) = number (xor b a)) ∧
    (∀ a b c, number (xor a c) ≤ number (xor a b) + number (xor b c)) ∧
    ∀ a d, ∃! b, xor a b = d := by
  intro number
  have hnumber (a : Identity) : number a = a.toNat := ofBigEndian_toBytes a
  simp only [hnumber]
  refine ⟨fun _ _ => ofBytes?_eq_some_iff, fun _ => isSome_ofBytes?_iff, toNat_lt_two_pow,
    fun _ _ => lessThan_iff, compare_eq_compare_toNat, fun a ha h => ?_,
    fun _ _ => height_le_of_toNat_le, fun a b => ?_, fun a b => by rw [xor_comm], toNat_xor_le,
    fun a d => ⟨a.xor d, xor_eq_iff.mpr rfl, fun b => xor_eq_iff.mp⟩⟩
  · rw [← height_eq_iff ha, iff_and_self]
    rintro rfl
    exact a.height_lt
  · rw [← xor_eq_zero_iff]
    exact ⟨fun h => eq_of_toNat_eq h, fun h => by rw [h]; rfl⟩

/-- A number whose two lowest words are used, and the next one. -/
theorem ordered_as_numbers_of_two :
    let a : Identity := ⟨0, 0, 0, 1, 0xFFFFFFFF⟩
    let b : Identity := ⟨0, 0, 0, 2, 0⟩
    let number (a : Identity) : Nat := Bytes.ofBigEndian a.toBytes
    a ≠ zero ∧ 2 ^ 32 ≤ number a ∧ number a < 2 ^ 33 ∧ a.height = 32 ∧ number a + 1 = number b ∧
      a.lessThan b ∧ a.height ≤ b.height := by
  intro a b number
  obtain ⟨-, -, -, hless, -, hheight, hmono, -⟩ := ordered_as_numbers
  have ha : a ≠ zero := by decide
  have hlow : 2 ^ 32 ≤ number a := by decide
  have hhigh : number a < 2 ^ 33 := by decide
  have hnext : number a + 1 = number b := by decide
  have hlt : number a < number b := Nat.lt_of_succ_le (Nat.le_of_eq hnext)
  exact ⟨ha, hlow, hhigh, (hheight a ha 32).mpr ⟨by decide, hlow, hhigh⟩, hnext,
    (hless a b).mpr hlt, hmono a b (Nat.le_of_lt hlt)⟩

end SearchOverlay.Identity
