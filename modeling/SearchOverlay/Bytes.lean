/-!
# Byte strings

`splitAt? n b` cuts exactly `n` bytes off the front. `littleEndian` and `bigEndian`
write a number in a fixed count of bytes; `ofLittleEndian` and `ofBigEndian` read it back.
-/

namespace SearchOverlay

abbrev Bytes := List UInt8

namespace Bytes

-- powers are those of the core library, whatever else is imported
attribute [local instance (high)] instPowNat

/-- The first `n` bytes and the rest, if there are that many. -/
def splitAt? (n : Nat) (b : Bytes) : Option (Bytes × Bytes) :=
  let head := b.take n
  if head.length = n then some (head, b.drop n) else none

theorem splitAt?_append (a r : Bytes) : splitAt? a.length (a ++ r) = some (a, r) := by
  simp [splitAt?]

theorem splitAt?_eq_some_iff {n : Nat} {b h r : Bytes} :
    splitAt? n b = some (h, r) ↔ b = h ++ r ∧ h.length = n := by
  constructor
  · intro e
    simp only [splitAt?] at e
    split at e
    · next hn =>
      obtain ⟨rfl, rfl⟩ := by simpa using e
      exact ⟨(List.take_append_drop n b).symm, hn⟩
    · cases e
  · rintro ⟨rfl, rfl⟩
    exact splitAt?_append h r

/-- The `n` lowest base-256 digits of `v`, lowest first. -/
def littleEndian : Nat → Nat → Bytes
  | 0, _ => []
  | n + 1, v => UInt8.ofNat (v % 256) :: littleEndian n (v / 256)

def ofLittleEndian : Bytes → Nat
  | [] => 0
  | b :: r => b.toNat + 256 * ofLittleEndian r

def bigEndian (n v : Nat) : Bytes := (littleEndian n v).reverse

def ofBigEndian (b : Bytes) : Nat := ofLittleEndian b.reverse

@[simp] theorem length_littleEndian (n v : Nat) : (littleEndian n v).length = n := by
  induction n generalizing v with
  | zero => rfl
  | succ n ih => simp [littleEndian, ih]

@[simp] theorem length_bigEndian (n v : Nat) : (bigEndian n v).length = n := by
  simp [bigEndian]

theorem ofLittleEndian_littleEndian (n v : Nat) :
    ofLittleEndian (littleEndian n v) = v % 256 ^ n := by
  induction n generalizing v with
  | zero => simp [littleEndian, ofLittleEndian, Nat.mod_one]
  | succ n ih =>
    rw [littleEndian, ofLittleEndian, ih, Nat.pow_succ, Nat.mul_comm (256 ^ n), Nat.mod_mul]
    simp

theorem littleEndian_ofLittleEndian (b : Bytes) :
    littleEndian b.length (ofLittleEndian b) = b := by
  induction b with
  | nil => rfl
  | cons x r ih =>
    have hx := x.toNat_lt
    have h1 : (x.toNat + 256 * ofLittleEndian r) % 256 = x.toNat := by omega
    have h2 : (x.toNat + 256 * ofLittleEndian r) / 256 = ofLittleEndian r := by omega
    simp [littleEndian, ofLittleEndian, h1, h2, ih]

theorem ofLittleEndian_append (a b : Bytes) :
    ofLittleEndian (a ++ b) = ofLittleEndian a + 256 ^ a.length * ofLittleEndian b := by
  induction a with
  | nil => simp [ofLittleEndian]
  | cons x a ih =>
    rw [List.cons_append, ofLittleEndian, ofLittleEndian, ih, List.length_cons, Nat.pow_succ,
      Nat.mul_add, Nat.add_assoc, Nat.mul_comm (256 ^ a.length) 256, Nat.mul_assoc]

theorem ofLittleEndian_lt (b : Bytes) : ofLittleEndian b < 256 ^ b.length := by
  induction b with
  | nil => decide
  | cons x r ih =>
    have hx := x.toNat_lt
    simp only [ofLittleEndian, List.length_cons, Nat.pow_succ]
    omega

/-- The bytes that `littleEndian` writes are those of its length that read back. -/
theorem eq_littleEndian_iff {n v : Nat} {b : Bytes} (hv : v < 256 ^ n) :
    b = littleEndian n v ↔ b.length = n ∧ ofLittleEndian b = v := by
  constructor
  · rintro rfl
    rw [ofLittleEndian_littleEndian, Nat.mod_eq_of_lt hv]
    exact ⟨length_littleEndian n v, rfl⟩
  · rintro ⟨rfl, rfl⟩
    exact (littleEndian_ofLittleEndian b).symm

theorem ofBigEndian_bigEndian (n v : Nat) : ofBigEndian (bigEndian n v) = v % 256 ^ n := by
  simp [ofBigEndian, bigEndian, ofLittleEndian_littleEndian]

theorem bigEndian_ofBigEndian (b : Bytes) : bigEndian b.length (ofBigEndian b) = b := by
  have h := littleEndian_ofLittleEndian b.reverse
  rw [List.length_reverse] at h
  simp [bigEndian, ofBigEndian, h]

theorem ofBigEndian_append (a b : Bytes) :
    ofBigEndian (a ++ b) = ofBigEndian a * 256 ^ b.length + ofBigEndian b := by
  rw [ofBigEndian, List.reverse_append, ofLittleEndian_append, List.length_reverse, Nat.add_comm,
    Nat.mul_comm]
  rfl

theorem ofBigEndian_lt (b : Bytes) : ofBigEndian b < 256 ^ b.length := by
  simpa [ofBigEndian] using ofLittleEndian_lt b.reverse

/-- The number written in the 32 bits of a word, most significant byte first. -/
def wordOfBigEndian (b : Bytes) : UInt32 := UInt32.ofNat (ofBigEndian b)

def bigEndianOfWord (w : UInt32) : Bytes := bigEndian 4 w.toNat

@[simp] theorem length_bigEndianOfWord (w : UInt32) : (bigEndianOfWord w).length = 4 :=
  length_bigEndian 4 _

@[simp] theorem wordOfBigEndian_bigEndianOfWord (w : UInt32) :
    wordOfBigEndian (bigEndianOfWord w) = w := by
  have hw : w.toNat < 256 ^ 4 := w.toNat_lt
  rw [wordOfBigEndian, bigEndianOfWord, ofBigEndian_bigEndian, Nat.mod_eq_of_lt hw,
    UInt32.ofNat_toNat]

theorem bigEndianOfWord_wordOfBigEndian {b : Bytes} (h : b.length = 4) :
    bigEndianOfWord (wordOfBigEndian b) = b := by
  have hb : ofBigEndian b < 256 ^ 4 := by
    rw [← h]
    exact ofBigEndian_lt b
  rw [bigEndianOfWord, wordOfBigEndian, UInt32.toNat_ofNat_of_lt' hb, ← h, bigEndian_ofBigEndian]

/-- The first `n` pieces of four bytes. -/
theorem flatMap_range_take (n : Nat) (b : Bytes) :
    (List.range n).flatMap (fun i => (b.drop (4 * i)).take 4) = b.take (4 * n) := by
  induction n with
  | zero => rfl
  | succ n ih =>
    rw [List.range_succ, List.flatMap_append, ih, List.flatMap_singleton, Nat.mul_succ,
      List.take_add]

end Bytes

end SearchOverlay
