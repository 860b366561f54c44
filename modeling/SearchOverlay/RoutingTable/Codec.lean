import SearchOverlay.RoutingTable
import SearchOverlay.Directory

/-!
# The stored form of a routing table

The own identity and address, then for every bucket its height, its number of contacts and
one row for each. An address is preceded by its length in one byte; the time is in
little-endian order.

Reading refuses rows that are not at home in their bucket and lists longer than a bucket's
capacity. Of several rows with one identity the first counts, rows with the own identity do
not count, and what follows the last bucket is ignored.

The table of a member is kept in a file named after its identity.
-/

namespace SearchOverlay.RoutingTable

inductive CodecError where
  /-- The input ends inside the item that starts at byte `pos`. -/
  | truncated (pos : Nat)
  | addressTooLong (length : Nat)
  | invalidAddress
  | invalidHeight (height : UInt8)
  | tooManyEntries (count : Nat)
  | misplacedEntry (bucket : UInt8) (actual : Nat)
  | bucketOverflow (height : UInt8)
deriving DecidableEq, Repr

def CodecError.message : CodecError → String
  | truncated pos => s!"routing table data truncated at byte {pos}"
  | addressTooLong n => s!"address of {n} bytes exceeds the 255-byte limit"
  | invalidAddress => "address is not valid UTF-8"
  | invalidHeight h => s!"bucket height {h.toNat} out of range"
  | tooManyEntries n => s!"bucket holds {n} entries, more than a one-byte count allows"
  | misplacedEntry b h => s!"entry at height {h} stored in bucket {b.toNat}"
  | bucketOverflow h => s!"bucket {h.toNat} holds more than K active or replacement entries"

/-! ## Writing -/

def encodeAddress (s : String) : Except CodecError Bytes :=
  let b := Utf8.encode s
  if b.length ≤ maxAddress then .ok (UInt8.ofNat b.length :: b)
  else .error (.addressTooLong b.length)

def encodeRow (replacement : Bool) (c : Contact) : Except CodecError Bytes :=
  match encodeAddress c.address with
  | .error e => .error e
  | .ok address =>
    .ok ((if replacement then 1 else 0) :: (c.identity.toBytes ++
      (Bytes.littleEndian 8 c.lastSeen.toNat ++ (c.staleCount :: address))))

def encodeEach {α : Type} (f : α → Except CodecError Bytes) : List α → Except CodecError Bytes
  | [] => .ok []
  | a :: r =>
    match f a with
    | .error e => .error e
    | .ok x =>
      match encodeEach f r with
      | .error e => .error e
      | .ok y => .ok (x ++ y)

def encodeBucket (b : Bucket) : Except CodecError Bytes :=
  let count := b.active.length + b.replacements.length
  if count ≤ 255 then
    match encodeEach (encodeRow false) b.active, encodeEach (encodeRow true) b.replacements with
    | .error e, _ => .error e
    | .ok _, .error e => .error e
    | .ok x, .ok y => .ok (b.height :: UInt8.ofNat count :: (x ++ y))
  else .error (.tooManyEntries count)

def encode (t : RoutingTable) : Except CodecError Bytes :=
  match encodeAddress t.self.address, encodeEach encodeBucket t.buckets.toList with
  | .error e, _ => .error e
  | .ok _, .error e => .error e
  | .ok address, .ok rows => .ok (t.identity.toBytes ++ (address ++ rows))

/-! ## Reading -/

/-- The bytes still to be read and the position of the first of them. -/
structure Cursor where
  pos : Nat
  rest : Bytes

abbrev Reader (α : Type) := StateT Cursor (Except CodecError) α

def readBytes (n : Nat) : Reader Bytes := fun c =>
  match Bytes.splitAt? n c.rest with
  | some (b, r) => .ok (b, ⟨c.pos + n, r⟩)
  | none => .error (.truncated c.pos)

def readByte : Reader UInt8 := fun c =>
  match c.rest with
  | b :: r => .ok (b, ⟨c.pos + 1, r⟩)
  | [] => .error (.truncated c.pos)

def readIdentity : Reader Identity := do
  return (Identity.ofBytes? (← readBytes idBytes)).getD .zero

def readTime : Reader Time := do
  return UInt64.ofNat (Bytes.ofLittleEndian (← readBytes 8))

def readAddress : Reader String := do
  match Utf8.decode (← readBytes (← readByte).toNat) with
  | .ok s => return s
  | .error _ => throw .invalidAddress

/-- A row, and whether it is one of a replacement. -/
def readRow : Reader (Bool × Contact) := do
  let kind ← readByte
  let identity ← readIdentity
  let lastSeen ← readTime
  let staleCount ← readByte
  let address ← readAddress
  return (kind != 0, ⟨identity, address, lastSeen, staleCount⟩)

/-- A table being read, and the identities met so far. -/
structure Draft where
  table : RoutingTable
  seen : List Identity

/-- The list of a bucket that rows of a kind belong to. -/
def rowsOf (replacement : Bool) (b : Bucket) : List Contact :=
  if replacement then b.replacements else b.active

def addRow (replacement : Bool) (c : Contact) (b : Bucket) : Bucket :=
  if replacement then { b with replacements := b.replacements ++ [c] }
  else { b with active := b.active ++ [c] }

/-- Takes up one row that was found under the height `h`. -/
def Draft.add (d : Draft) (h : UInt8) (i : Fin 160) (row : Bool × Contact) :
    Except CodecError Draft :=
  let (replacement, c) := row
  if c.identity = d.table.identity || d.seen.contains c.identity then .ok d
  else
    let seen := c.identity :: d.seen
    let actual := d.table.index c.identity
    if actual ≠ i then .error (.misplacedEntry h actual)
    else
      let b := d.table.bucket i
      if Bucket.capacity ≤ (rowsOf replacement b).length then .error (.bucketOverflow h)
      else .ok ⟨d.table.setBucket i (addRow replacement c b), seen⟩

def readRows (h : UInt8) (i : Fin 160) : Nat → Draft → Reader Draft
  | 0, d => return d
  | n + 1, d => do
    let row ← readRow
    match d.add h i row with
    | .ok d' => readRows h i n d'
    | .error e => throw e

def readSection (d : Draft) : Reader Draft := do
  let h ← readByte
  if hi : h.toNat < 160 then
    let count ← readByte
    readRows h ⟨h.toNat, hi⟩ count.toNat d
  else throw (.invalidHeight h)

def readSections : Nat → Draft → Reader Draft
  | 0, d => return d
  | n + 1, d => do readSections n (← readSection d)

def sortReplacements (b : Bucket) : Bucket :=
  { b with replacements := Bucket.sortBySeen b.replacements }

/-- Reads a whole table; its own contact counts as seen now. -/
def read (now : Time) : Reader RoutingTable := do
  let identity ← readIdentity
  let address ← readAddress
  let d ← readSections 160 ⟨new (.fresh now identity address), []⟩
  return { d.table with buckets := d.table.buckets.map sortReplacements }

def decode (now : Time) (b : Bytes) : Except CodecError RoutingTable :=
  match (read now).run ⟨0, b⟩ with
  | .ok (t, _) => .ok t
  | .error e => .error e

/-! ## On file -/

def fileStem (id : Identity) : String := "routing-" ++ id.toHex

def fileName (id : Identity) : String := fileStem id ++ ".bin"

def temporaryName (id : Identity) : String := fileStem id ++ ".tmp"

/-- Writes the table into the file of an identity. A table that cannot be encoded leaves the
directory as it is. -/
def save (id : Identity) (t : RoutingTable) (d : Directory) : Except CodecError Directory :=
  match t.encode with
  | .ok b => .ok (d.replace (temporaryName id) (fileName id) b)
  | .error e => .error e

/-- The table of a member that starts with what its directory holds: the stored table moved
to the member's contact, or a new one if there is none that can be read. -/
def load (now : Time) (self : Contact) (d : Directory) : RoutingTable :=
  match d.read? (fileName self.identity) with
  | none => new self
  | some b =>
    match decode now b with
    | .ok t => t.setSelf now self
    | .error _ => new self

end SearchOverlay.RoutingTable
