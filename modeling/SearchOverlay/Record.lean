import SearchOverlay.Contact
import SearchOverlay.Hash.Blake3
import SearchOverlay.Text.Lowercase

/-!
# Search records and their metadata

A record is a page that was found. The hash of its address names it: 32 bytes, ordered byte by byte.
Metadata is what peers think of a page: a score in single precision, kept by its bits, and the
number of votes behind it.
-/

namespace SearchOverlay

structure ContentHash where
  bytes : Bytes
  length_bytes : bytes.length = 32
deriving DecidableEq

namespace ContentHash

def ofBytes? (b : Bytes) : Option ContentHash :=
  if h : b.length = 32 then some ⟨b, h⟩ else none

def zero : ContentHash := ⟨List.replicate 32 0, by simp⟩

instance : Inhabited ContentHash := ⟨zero⟩

def ofUrl (url : String) : ContentHash := (ofBytes? (Blake3.digest (Utf8.encode url))).getD zero

def toHex (h : ContentHash) : String := Hex.encode h.bytes

instance : Ord ContentHash where
  compare a b := compare a.bytes b.bytes

theorem ext {a b : ContentHash} (h : a.bytes = b.bytes) : a = b := by
  cases a; cases b; cases h; rfl

instance : Std.TransOrd ContentHash where
  eq_swap {a b} := Std.OrientedOrd.eq_swap (a := a.bytes) (b := b.bytes)
  isLE_trans {a b c} := Std.TransOrd.isLE_trans (a := a.bytes) (b := b.bytes) (c := c.bytes)

instance : Std.LawfulEqOrd ContentHash where
  compare_self {a} := Std.ReflOrd.compare_self (a := a.bytes)
  eq_of_compare h := ext (Std.LawfulEqOrd.eq_of_compare h)

end ContentHash

structure Record where
  hash : ContentHash
  url : String
  title : String
  snippet : String
  timestamp : Time
deriving DecidableEq, Inhabited

/-- A number in single precision, given by its 32 bits. -/
structure Score where
  bits : UInt32
deriving DecidableEq, Repr, Inhabited

structure Metadata where
  hash : ContentHash
  score : Score
  votes : UInt32
  timestamp : Time
deriving DecidableEq, Inhabited

/-- Whether `needle` stands somewhere in `text`. -/
def occursIn (needle : List Char) : List Char → Bool
  | [] => needle.isEmpty
  | c :: r => needle.isPrefixOf (c :: r) || occursIn needle r

namespace Score

def toFloat (s : Score) : Float32 := Float32.ofBits s.bits

def isNaN (s : Score) : Bool := s.bits &&& 0x7FFFFFFF > 0x7F800000

/-- The quiet form of a score that is no number. -/
def quiet (s : Score) : Score := ⟨s.bits ||| 0x00400000⟩

/-- What opposite infinities come to. -/
def indefinite : Score := ⟨0xFFC00000⟩

/-- Half the rounded sum. A score that is no number is handed on, the first one of two. -/
def average (s t : Score) : Score :=
  if s.isNaN then s.quiet
  else if t.isNaN then t.quiet
  else
    let mean : Score := ⟨((s.toFloat + t.toFloat) / 2).toBits⟩
    if mean.isNaN then indefinite else mean

end Score

namespace Record

def ofPage (url title snippet : String) (timestamp : Time) : Record :=
  ⟨.ofUrl url, url, title, snippet, timestamp⟩

/-- Whether the title, the snippet or the address has `needle` in its lower-case form. -/
def mentions (needle : List Char) (r : Record) : Bool :=
  [r.title, r.snippet, r.url].any fun s => occursIn needle (Lowercase.ofList s.toList)

end Record

end SearchOverlay
