import SearchOverlay.Bytes

/-!
# UTF-8 text

`encode` gives the bytes of a text. `decode` accepts exactly the valid byte strings; for any
other it names the first byte that starts no valid sequence, and how many bytes of it are
known to be wrong.
-/

namespace SearchOverlay.Utf8

/-- Where a byte string stops being UTF-8. -/
structure Fault where
  /-- The length of the longest valid front part. -/
  validUpTo : Nat
  /-- The length of the wrong sequence, or nothing when the input ends inside a sequence. -/
  length : Option Nat
deriving DecidableEq, Repr

def Fault.message (f : Fault) : String :=
  match f.length with
  | some n => s!"invalid utf-8 sequence of {n} bytes from index {f.validUpTo}"
  | none => s!"incomplete utf-8 byte sequence from index {f.validUpTo}"

def isContinuation (b : UInt8) : Bool := 0x80 ≤ b && b ≤ 0xBF

def width (lead : UInt8) : Nat :=
  if lead < 0x80 then 1
  else if 0xC2 ≤ lead && lead ≤ 0xDF then 2
  else if 0xE0 ≤ lead && lead ≤ 0xEF then 3
  else if 0xF0 ≤ lead && lead ≤ 0xF4 then 4
  else 0

/-- The second byte leaves no over-long form, no surrogate and nothing above U+10FFFF. -/
def isSecond (lead b : UInt8) : Bool :=
  if lead = 0xE0 then 0xA0 ≤ b && b ≤ 0xBF
  else if lead = 0xED then 0x80 ≤ b && b ≤ 0x9F
  else if lead = 0xF0 then 0x90 ≤ b && b ≤ 0xBF
  else if lead = 0xF4 then 0x80 ≤ b && b ≤ 0x8F
  else isContinuation b

/-- The fault of the continuation bytes `r`, of which `missing` are needed after `seen` bytes. -/
def tailFault (seen : Nat) : Nat → Bytes → Option (Option Nat)
  | 0, _ => none
  | _ + 1, [] => some none
  | missing + 1, b :: r =>
    if isContinuation b then tailFault (seen + 1) missing r else some (some seen)

def sequenceFault : Bytes → Option (Option Nat)
  | [] => none
  | lead :: r =>
    match width lead with
    | 0 => some (some 1)
    | 1 => none
    | n + 2 =>
      match r with
      | [] => some none
      | b :: r => if isSecond lead b then tailFault 2 n r else some (some 1)

/-- The first fault of `b`, whose bytes start at index `pos`. `n` bounds the sequences. -/
def firstFault : Nat → Nat → Bytes → Fault
  | 0, pos, _ => ⟨pos, none⟩
  | n + 1, pos, b =>
    match sequenceFault b with
    | some length => ⟨pos, length⟩
    | none =>
      let w := (b.head?.map width).getD 1
      firstFault n (pos + w) (b.drop w)

def encode (s : String) : Bytes := s.toByteArray.data.toList

def decode (b : Bytes) : Except Fault String :=
  match String.fromUTF8? ⟨b.toArray⟩ with
  | some s => .ok s
  | none => .error (firstFault b.length 0 b)

@[simp] theorem length_encode (s : String) : (encode s).length = s.utf8ByteSize := rfl

theorem decode_encode (s : String) : decode (encode s) = .ok s := by
  have h : (⟨(encode s).toArray⟩ : ByteArray) = s.toByteArray := by simp [encode]
  simp only [decode, String.fromUTF8?, h, s.isValidUTF8, dite_true]
  rfl

theorem encode_of_decode {b : Bytes} {s : String} (h : decode b = .ok s) : b = encode s := by
  unfold decode String.fromUTF8? at h
  split at h
  · next t ht =>
    split at ht
    · cases ht; cases h; simp [encode, String.fromUTF8]
    · cases ht
  · cases h

theorem decode_eq_ok_iff {b : Bytes} {s : String} : decode b = .ok s ↔ b = encode s :=
  ⟨encode_of_decode, fun h => h ▸ decode_encode s⟩

end SearchOverlay.Utf8
