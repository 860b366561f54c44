import SearchOverlay.Store

/-!
# The wire form of values

A type with a wire form has a writer and a reader. Numbers have a fixed width and are in
little-endian order; a list or a text is preceded by its length in eight bytes; an optional
value is preceded by a tag byte. An identity is its five words, a content hash its 32 bytes, and a
structure its fields in order. The reader returns what follows the value.

A message is the wire form of one value, at most `maxMessage` bytes long and with nothing
after it.
-/

namespace SearchOverlay

namespace Wire

/-- Why bytes are not the wire form of a value, or a value has no message. -/
inductive Fault where
  /-- The input ends inside a number, a fixed block or a list. -/
  | endOfInput
  | textOverrun
  | invalidText (fault : Utf8.Fault)
  | invalidTag (tag : UInt8)
  | trailingBytes
  | sizeLimit
deriving DecidableEq, Repr

def Fault.message : Fault → String
  | endOfInput => "io error: unexpected end of file"
  | textOverrun => "io error: "
  | invalidText f => "string is not valid utf8: " ++ f.message
  | invalidTag t => s!"tag for enum is not valid, found {t.toNat}"
  | trailingBytes => "Slice had bytes remaining after deserialization"
  | sizeLimit => "the size limit has been reached"

abbrev Reader (α : Type) := StateT Bytes (Except Fault) α

/-- The next `n` bytes. -/
def block (n : Nat) : Reader Bytes := fun b =>
  match Bytes.splitAt? n b with
  | some p => .ok p
  | none => .error .endOfInput

end Wire

class Wire (α : Type) where
  write : α → Bytes
  read : Wire.Reader α

namespace Wire

instance : Wire Unit where
  write _ := []
  read := pure ()

instance : Wire UInt8 where
  write x := [x]
  read
    | x :: r => .ok (x, r)
    | [] => .error .endOfInput

instance : Wire UInt32 where
  write x := Bytes.littleEndian 4 x.toNat
  read := do return UInt32.ofNat (Bytes.ofLittleEndian (← block 4))

instance : Wire UInt64 where
  write x := Bytes.littleEndian 8 x.toNat
  read := do return UInt64.ofNat (Bytes.ofLittleEndian (← block 8))

def writeLength (n : Nat) : Bytes := Bytes.littleEndian 8 n

def readLength : Reader Nat := do return Bytes.ofLittleEndian (← block 8)

/-- The next `n` bytes as text. -/
def textBlock (n : Nat) : Reader String := fun b =>
  match Bytes.splitAt? n b with
  | none => .error .textOverrun
  | some (head, r) =>
    match Utf8.decode head with
    | .ok s => .ok (s, r)
    | .error f => .error (.invalidText f)

instance : Wire String where
  write s :=
    let b := Utf8.encode s
    writeLength b.length ++ b
  read := do textBlock (← readLength)

def readMany {α : Type} [Wire α] : Nat → Array α → Reader (List α)
  | 0, done, b => .ok (done.toList, b)
  | n + 1, done, b =>
    match read b with
    | .error e => .error e
    | .ok (a, r) => readMany n (done.push a) r

instance {α : Type} [Wire α] : Wire (List α) where
  write as := writeLength as.length ++ as.flatMap write
  read := do readMany (← readLength) #[]

instance {α : Type} [Wire α] : Wire (Option α) where
  write
    | none => [0]
    | some a => 1 :: write a
  read := do
    match ← (read : Reader UInt8) with
    | 0 => return none
    | 1 => return some (← read)
    | t => throw (.invalidTag t)

def maxMessage : Nat := 8388608

/-- The message of a value, if it is not too long. -/
def encode {α : Type} [Wire α] (a : α) : Except Fault Bytes :=
  let b := write a
  if b.length ≤ maxMessage then .ok b else .error .sizeLimit

/-- Reads a value from the front; what follows it is ignored. -/
def decodeFront {α : Type} [Wire α] (b : Bytes) : Except Fault α :=
  match read b with
  | .ok (a, _) => .ok a
  | .error e => .error e

def decode {α : Type} [Wire α] (b : Bytes) : Except Fault α :=
  match read b with
  | .ok (a, []) => .ok a
  | .ok (_, _ :: _) => .error .trailingBytes
  | .error e => .error e

/-! ## The domain -/

instance : Wire Identity where
  write a := a.words.flatMap write
  read := do return ⟨← read, ← read, ← read, ← read, ← read⟩

instance : Wire ContentHash where
  write h := h.bytes
  read b :=
    match block 32 b with
    | .ok (x, r) => .ok ((ContentHash.ofBytes? x).getD .zero, r)
    | .error e => .error e

instance : Wire Contact where
  write c := write c.identity ++ write c.address ++ write c.lastSeen ++ write c.staleCount
  read := do return ⟨← read, ← read, ← read, ← read⟩

instance : Wire Record where
  write r := write r.hash ++ write r.url ++ write r.title ++ write r.snippet ++ write r.timestamp
  read := do return ⟨← read, ← read, ← read, ← read, ← read⟩

instance : Wire Score where
  write s := write s.bits
  read := do return ⟨← read⟩

instance : Wire Metadata where
  write m := write m.hash ++ write m.score ++ write m.votes ++ write m.timestamp
  read := do return ⟨← read, ← read, ← read, ← read⟩

instance : Wire SyncStatus where
  write s := write s.results ++ write s.metadata
  read := do return ⟨← read, ← read⟩

end Wire

end SearchOverlay
