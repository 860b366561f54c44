import SearchOverlay.Bytes

/-!
# Compressed blocks

A block starts with the length of its content, in seven bits a byte with the lowest first.
Then follow elements: literals, which carry bytes, and copies, which repeat bytes of the
content so far. `decompress` reads every block. Many blocks have the same content, and which
of them is written is left to an `Encoder`; `literals` is the one that writes the content as
one literal.
-/

namespace SearchOverlay.Snappy

-- powers are those of the core library, whatever else is imported
attribute [local instance (high)] instPowNat

/-- The number in at most `n` bytes at the front, with the lowest seven bits in the first
byte, and what follows it. -/
def readVarint : (n : Nat) → Bytes → Option (Nat × Bytes)
  | 0, _ | _ + 1, [] => none
  | n + 1, b :: r =>
    if b < 128 then some (b.toNat, r)
    else (readVarint n r).map fun (v, r) => (b.toNat - 128 + 128 * v, r)

/-- The seven-bit digits of a number; `n` bounds how many continue. -/
def writeVarint : Nat → Nat → Bytes
  | 0, v => [UInt8.ofNat v]
  | n + 1, v =>
    if v < 128 then [UInt8.ofNat v] else UInt8.ofNat (v % 128 + 128) :: writeVarint n (v / 128)

/-- The longest content whose length a header may give. -/
def maxContent : Nat := UInt32.size - 1

def maxHeader : Nat := 5

/-- The length that the header gives, and the elements. The empty block has no header. -/
def readHeader (b : Bytes) : Option (Nat × Bytes) :=
  match readVarint maxHeader b with
  | some (n, r) => if n ≤ maxContent then some (n, r) else none
  | none => none

/-- The length of the content. An empty input counts as an empty block here. -/
def contentLength (b : Bytes) : Option Nat :=
  match b with
  | [] => some 0
  | _ :: _ => (readHeader b).map (·.1)

/-- Puts `len` bytes behind `out`, each the one `offset` places before it. -/
def copyBack (offset : Nat) : Nat → Array UInt8 → Array UInt8
  | 0, out => out
  | len + 1, out => copyBack offset len (out.push (out.getD (out.size - offset) 0))

def literal (total len : Nat) (out : Array UInt8) (b : Bytes) : Option (Array UInt8 × Bytes) :=
  if total < out.size + len then none
  else
    match Bytes.splitAt? len b with
    | some (x, r) => some (out ++ x, r)
    | none => none

def copy (total offset len : Nat) (out : Array UInt8) : Option (Array UInt8) :=
  if offset = 0 || out.size < offset || total < out.size + len then none
  else some (copyBack offset len out)

/-- Reads one element that starts with `tag`. A literal has its length in the tag, or in one
to four bytes after it. -/
def element (total : Nat) (out : Array UInt8) (tag : UInt8) (b : Bytes) :
    Option (Array UInt8 × Bytes) :=
  let high := tag.toNat / 4
  let copyWith (width base len : Nat) : Option (Array UInt8 × Bytes) :=
    match Bytes.splitAt? width b with
    | some (x, r) => (copy total (base + Bytes.ofLittleEndian x) len out).map (·, r)
    | none => none
  match tag.toNat % 4 with
  | 0 =>
    if high < 60 then literal total (high + 1) out b
    else
      match Bytes.splitAt? (high - 59) b with
      | some (x, r) => literal total (Bytes.ofLittleEndian x + 1) out r
      | none => none
  | 1 => copyWith 1 (tag.toNat / 32 * 256) (high % 8 + 4)
  | 2 => copyWith 2 0 (high + 1)
  | _ => copyWith 4 0 (high + 1)

def elements (total : Nat) : Nat → Array UInt8 → Bytes → Option (Array UInt8)
  | _, out, [] => some out
  | 0, _, _ :: _ => none
  | n + 1, out, tag :: b =>
    match element total out tag b with
    | some (out, r) => elements total n out r
    | none => none

/-- The content of a block, if the block is well formed and has the content's length. -/
def decompress (b : Bytes) : Option Bytes :=
  match readHeader b with
  | none => none
  | some (total, r) =>
    match elements total r.length #[] r with
    | some out => if out.size = total then some out.toList else none
    | none => none

/-- Writes blocks that are read back, none longer than the most that its content needs. -/
class Encoder where
  encode : Bytes → Bytes
  decompress_encode {content : Bytes} (h : content.length ≤ maxContent) :
    decompress (encode content) = some content
  length_encode_le {content : Bytes} (h : content.length ≤ maxContent) :
    (encode content).length ≤ 32 + content.length + content.length / 6

/-- A block with the content as one literal. -/
def compress (content : Bytes) : Bytes :=
  let n := content.length
  writeVarint (maxHeader - 1) n ++
    match content with
    | [] => []
    | _ :: _ => 0xFC :: (Bytes.littleEndian 4 (n - 1) ++ content)

theorem contentLength_of_decompress {b x : Bytes} (h : decompress b = some x) :
    contentLength b = some x.length := by
  cases b with
  | nil => cases h
  | cons c b =>
    unfold decompress at h
    split at h
    · cases h
    · next total r hheader =>
      split at h
      · next out _ =>
        split at h
        · next hsize =>
          cases h
          rw [contentLength, hheader, Array.length_toList, hsize, Option.map_some]
        · cases h
      · cases h

/-! ## Literals -/

theorem readVarint_writeVarint (n v : Nat) (r : Bytes) (h : v < 128 ^ (n + 1)) :
    readVarint (n + 1) (writeVarint n v ++ r) = some (v, r) := by
  induction n generalizing v with
  | zero =>
    have hv : (UInt8.ofNat v).toNat = v := by rw [UInt8.toNat_ofNat']; omega
    have hc : UInt8.ofNat v < 128 := by
      rw [UInt8.lt_iff_toNat_lt, hv]; exact h
    simp only [writeVarint, List.cons_append, readVarint, hc, if_true, hv, List.nil_append]
  | succ n ih =>
    rw [writeVarint]
    split
    · next hv =>
      have hv' : (UInt8.ofNat v).toNat = v := by rw [UInt8.toNat_ofNat']; omega
      have hc : UInt8.ofNat v < 128 := by rw [UInt8.lt_iff_toNat_lt, hv']; exact hv
      simp only [List.cons_append, readVarint, hc, if_true, hv', List.nil_append]
    · next hv =>
      have hb : (UInt8.ofNat (v % 128 + 128)).toNat = v % 128 + 128 := by
        rw [UInt8.toNat_ofNat']; omega
      have hc : ¬ UInt8.ofNat (v % 128 + 128) < 128 := by
        rw [UInt8.lt_iff_toNat_lt, hb, Nat.not_lt]; exact Nat.le_add_left _ _
      have hd : v / 128 < 128 ^ (n + 1) := by
        rw [Nat.pow_succ] at h; exact Nat.div_lt_of_lt_mul (by omega)
      have hs : v % 128 + 128 - 128 + 128 * (v / 128) = v := by omega
      simp only [List.cons_append, readVarint, hc, if_false, ih _ hd, Option.map_some, hb, hs]

theorem readHeader_writeVarint {n : Nat} (r : Bytes) (h : n ≤ maxContent) :
    readHeader (writeVarint (maxHeader - 1) n ++ r) = some (n, r) := by
  have hn : n < 128 ^ (4 + 1) := by simp only [maxContent, UInt32.size] at h; omega
  simp [readHeader, maxHeader, readVarint_writeVarint 4 n r hn, h]

theorem length_writeVarint_le (n v : Nat) : (writeVarint n v).length ≤ n + 1 := by
  induction n generalizing v with
  | zero => exact Nat.le_refl 1
  | succ n ih =>
    rw [writeVarint]
    split
    · exact Nat.le_add_left 1 (n + 1)
    · exact Nat.succ_le_succ (ih (v / 128))

theorem length_compress_le (content : Bytes) :
    (compress content).length ≤ content.length + 2 * maxHeader := by
  have hheader := length_writeVarint_le (maxHeader - 1) content.length
  simp only [maxHeader] at hheader ⊢
  cases content with
  | nil => simpa [compress, maxHeader] using Nat.le_trans hheader (by decide)
  | cons c cs =>
    simp only [compress, maxHeader, List.length_append, List.length_cons,
      Bytes.length_littleEndian] at hheader ⊢
    omega

/-- A literal with four bytes of length takes up the whole content. -/
theorem element_literal {c : UInt8} {cs : Bytes} (h : cs.length < UInt32.size) :
    element (cs.length + 1) #[] 0xFC (Bytes.littleEndian 4 cs.length ++ (c :: cs)) =
      some ((c :: cs).toArray, []) := by
  have hs := Bytes.splitAt?_append (Bytes.littleEndian 4 cs.length) (c :: cs)
  have hl := Bytes.splitAt?_append (c :: cs) []
  rw [Bytes.length_littleEndian] at hs
  rw [List.append_nil, List.length_cons] at hl
  have hn : Bytes.ofLittleEndian (Bytes.littleEndian 4 cs.length) = cs.length := by
    rw [Bytes.ofLittleEndian_littleEndian, Nat.mod_eq_of_lt h]
  simp [element, hs, hn, literal, hl]

theorem decompress_compress {content : Bytes} (h : content.length ≤ maxContent) :
    decompress (compress content) = some content := by
  simp only [decompress, compress, readHeader_writeVarint _ h]
  cases content with
  | nil => simp [elements]
  | cons c cs =>
    have hl : cs.length < UInt32.size := by simp only [maxContent, List.length_cons] at h; omega
    simp [elements, element_literal hl]

abbrev literals : Encoder where
  encode := compress
  decompress_encode := decompress_compress
  length_encode_le {content} _ := by
    have hlen := length_compress_le content
    simp only [maxHeader] at hlen
    omega

end SearchOverlay.Snappy
