import SearchOverlay.Text.CharSet
import SearchOverlay.Text.Utf8

/-!
# Quoted and hexadecimal text

A text or a single character between quotes, as it is shown to a developer: the quote, the
backslash and the common control characters are escaped by a letter, and what could not be
seen is shown by its code point. In hexadecimal a byte has two digits, written in lower case
and read in either case.
-/

namespace SearchOverlay.Escaped

def codePoint (c : Char) : List Char := ['\\', 'u', '\x7b'] ++ Nat.toDigits 16 c.toNat ++ ['\x7d']

/-- The Hangul fillers: letters that are never drawn. -/
def hangulFillers : CharSet := [0x115f, 0x1160, 0x3164, 0x3164, 0xffa0, 0xffa0]

/-- The halfwidth voicing marks: they extend a kana and are drawn beside it. -/
def halfwidthMarks : CharSet := [0xff9e, 0xff9f]

/-- Whether a reader could not see the character, or not see it apart from the one before. -/
def isHidden (c : Char) : Bool :=
  !CharSet.printable.has c || hangulFillers.has c ||
    CharSet.graphemeExtend.has c && !halfwidthMarks.has c

def ofChar (quote c : Char) : List Char :=
  if c = '\x00' then ['\\', '0']
  else if c = '\t' then ['\\', 't']
  else if c = '\r' then ['\\', 'r']
  else if c = '\n' then ['\\', 'n']
  else if c = quote || c = '\\' then ['\\', c]
  else if isHidden c then codePoint c
  else [c]

def quoteWith (quote : Char) (cs : List Char) : String :=
  String.ofList (quote :: (cs.flatMap (ofChar quote) ++ [quote]))

def char (c : Char) : String := quoteWith '\'' [c]

def text (s : String) : String := quoteWith '"' s.toList

end SearchOverlay.Escaped

namespace SearchOverlay.Hex

inductive Fault where
  | oddLength
  /-- The byte at `index` is no digit; it is shown as the character with its code. -/
  | badDigit (byte : UInt8) (index : Nat)
  | badLength
deriving DecidableEq, Repr

def Fault.message : Fault → String
  | oddLength => "Odd number of digits"
  | badDigit b i => s!"Invalid character {Escaped.char (Char.ofNat b.toNat)} at position {i}"
  | badLength => "Invalid string length"

def digit (n : Nat) : Char := (Nat.digitChar n)

def encodeChars (b : Bytes) : List Char :=
  b.flatMap fun x => [digit (x.toNat / 16), digit (x.toNat % 16)]

def encode (b : Bytes) : String := String.ofList (encodeChars b)

/-- The value of the digit whose character has code `b`. -/
def value? (b : UInt8) : Option Nat :=
  if 0x30 ≤ b && b ≤ 0x39 then some (b.toNat - 0x30)
  else if 0x41 ≤ b && b ≤ 0x46 then some (b.toNat - 0x37)
  else if 0x61 ≤ b && b ≤ 0x66 then some (b.toNat - 0x57)
  else none

/-- Reads pairs of digits; `index` is the position of the first and `done` holds the bytes
before it in reverse. -/
def pairs (index : Nat) (done : Bytes) : Bytes → Except Fault Bytes
  | h :: l :: r =>
    match value? h, value? l with
    | some x, some y => pairs (index + 2) (UInt8.ofNat (16 * x + y) :: done) r
    | none, _ => .error (.badDigit h index)
    | some _, none => .error (.badDigit l (index + 1))
  | _ => .ok done.reverse

def decode (s : String) : Except Fault Bytes :=
  let b := Utf8.encode s
  if b.length % 2 = 1 then .error .oddLength else pairs 0 [] b

end SearchOverlay.Hex
