import SearchOverlay.Hash.Sha1
import SearchOverlay.Text.Hex

/-!
# Identities

A member of the overlay is named by 160 bits, kept as five words, the most significant
first. The distance of two identities is their bitwise difference `xor`, compared as a
number; its `height` is the index of its highest set bit.
-/

namespace SearchOverlay

def idBits : Nat := 160

def idBytes : Nat := 20

structure Identity where
  w0 : UInt32
  w1 : UInt32
  w2 : UInt32
  w3 : UInt32
  w4 : UInt32
deriving DecidableEq, Repr, Inhabited

namespace Identity

def zero : Identity := ⟨0, 0, 0, 0, 0⟩

def words (a : Identity) : List UInt32 := [a.w0, a.w1, a.w2, a.w3, a.w4]

/-- The 160-bit number. -/
def toNat (a : Identity) : Nat := a.words.foldl (fun n w => n * UInt32.size + w.toNat) 0

def toBytes (a : Identity) : Bytes := a.words.flatMap Bytes.bigEndianOfWord

def ofBytes? (b : Bytes) : Option Identity :=
  if b.length = idBytes then
    let word (i : Nat) : UInt32 := Bytes.wordOfBigEndian ((b.drop (4 * i)).take 4)
    some ⟨word 0, word 1, word 2, word 3, word 4⟩
  else none

/-- The identity derived from seed bytes, usually those of an address. -/
def ofSeed (seed : Bytes) : Identity :=
  let d := Sha1.digest seed
  ⟨d.a, d.b, d.c, d.d, d.e⟩

def xor (a b : Identity) : Identity :=
  ⟨a.w0 ^^^ b.w0, a.w1 ^^^ b.w1, a.w2 ^^^ b.w2, a.w3 ^^^ b.w3, a.w4 ^^^ b.w4⟩

/-- The first word that differs decides. -/
def wordsLess : List UInt32 → List UInt32 → Bool
  | a :: as, b :: bs => if a = b then wordsLess as bs else a < b
  | _, _ => false

def lessThan (a b : Identity) : Bool := wordsLess a.words b.words

instance : Ord Identity where
  compare a b :=
    (compare a.w0 b.w0).then ((compare a.w1 b.w1).then
      ((compare a.w2 b.w2).then ((compare a.w3 b.w3).then (compare a.w4 b.w4))))

/-- The index of the highest set bit of a number given by its words, 0 if there is none. -/
def wordsHeight : List UInt32 → Nat
  | [] => 0
  | w :: r => if w = 0 then wordsHeight r else 32 * r.length + w.toNat.log2

/-- The height of an identity as a distance. -/
def height (a : Identity) : Nat := wordsHeight a.words

theorem wordsHeight_lt : ∀ (ws : List UInt32), ws ≠ [] → wordsHeight ws < 32 * ws.length
  | [], h => absurd rfl h
  | w :: r, _ => by
    have hw : w.toNat < 2 ^ 32 := w.toNat_lt
    rw [wordsHeight]
    split
    · cases r with
      | nil => simp [wordsHeight]
      | cons x r => have := wordsHeight_lt (x :: r) (by simp); simp at this ⊢; omega
    · next h =>
      have h0 : w.toNat ≠ 0 := fun e => h (UInt32.toNat_inj.mp e)
      have := (Nat.log2_lt h0).mpr hw
      simp only [List.length_cons]; omega

theorem height_lt (a : Identity) : a.height < idBits := wordsHeight_lt a.words (by simp [words])

def toHex (a : Identity) : String := Hex.encode a.toBytes

/-- The first 8 bytes in hexadecimal. -/
def shortHex (a : Identity) : String := Hex.encode (a.toBytes.take 8)

def ofHex (s : String) : Except Hex.Fault Identity :=
  match Hex.decode s with
  | .error e => .error e
  | .ok b =>
    match ofBytes? b with
    | some a => .ok a
    | none => .error .badLength

def describe (a : Identity) : String := s!"Identity({a.shortHex})"

@[simp] theorem xor_self (a : Identity) : a.xor a = zero := by simp [xor, zero]

@[simp] theorem xor_xor_cancel (a b : Identity) : (a.xor b).xor b = a := by
  have h (x y : UInt32) : x ^^^ y ^^^ y = x := by
    rw [UInt32.xor_assoc, UInt32.xor_self, UInt32.xor_zero]
  simp only [xor, h]

theorem xor_comm (a b : Identity) : a.xor b = b.xor a := by
  simp [xor, UInt32.xor_comm]

@[simp] theorem length_toBytes (a : Identity) : a.toBytes.length = idBytes := by
  simp [toBytes, words, idBytes]

@[simp] theorem ofBytes?_toBytes (a : Identity) : ofBytes? a.toBytes = some a := by
  rw [ofBytes?, if_pos a.length_toBytes]
  simp [toBytes, words, List.drop_append, List.drop_eq_nil_of_le, List.take_of_length_le]

end Identity

end SearchOverlay
