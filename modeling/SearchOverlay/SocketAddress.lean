/-!
# Socket addresses

The address of a server: a host, and the number of a service on it. The address of a host is in the
short form of 32 bits or in the long form of 128, and either has a text.

A short address is written as up to four numerals with dots between them, of which each but
the last stands for one octet and the last for all that remain. A long one is written as
eight groups in hexadecimal with colons between them. Two colons stand, once, for groups
that are zero, and a short address with dots for the last two groups. Behind a percent sign
may stand the scope in which a long address is meant, which is no part of it. Before the number of a
service a long address stands in brackets.
-/

namespace SearchOverlay

/-! ## Numerals

At least one digit. A numeral may name its base by what it starts with: `0x` for sixteen, another
`0` for eight. -/

namespace Numeral

/-- The value of a digit; from ten on, digits are letters in either case. -/
def digit? (c : Char) : Option Nat :=
  if c.isDigit then some (c.toNat - '0'.toNat)
  else if c.isLower then some (c.toNat - 'a'.toNat + 10)
  else if c.isUpper then some (c.toNat - 'A'.toNat + 10)
  else none

def push? (base n : Nat) (c : Char) : Option Nat := do
  let d ← digit? c
  if d < base then some (base * n + d) else none

def inBase? (base : Nat) (text : List Char) : Option Nat :=
  if text.isEmpty then none else text.foldlM (push? base) 0

def decimal? : List Char → Option Nat := inBase? 10

def decode? : List Char → Option Nat
  | '0' :: 'x' :: digits | '0' :: 'X' :: digits => inBase? 16 digits
  | '0' :: digits => inBase? 8 ('0' :: digits)
  | digits => decimal? digits

end Numeral

/-! ## Hosts -/

inductive IpAddress where
  | short (bits : BitVec 32)
  | long (bits : BitVec 128)
deriving DecidableEq, Repr

namespace IpAddress

-- powers are those of the core library, whatever else is imported
attribute [local instance (high)] instPowNat

/-! ## Reading -/

/-- The number that a list of parts makes up in `n` octets. -/
def joinParts? : (n : Nat) → List Nat → Option Nat
  | _, [] | 0, _ => none
  | n + 1, [p] => if p < 256 ^ (n + 1) then some p else none
  | n + 1, p :: parts =>
    if p < 256 then (joinParts? n parts).map (p * 256 ^ n + ·) else none

def short? (text : List Char) : Option (BitVec 32) := do
  let parts ← (text.splitOn '.').mapM Numeral.decode?
  return BitVec.ofNat 32 (← joinParts? 4 parts)

/-- An octet in decimal has no needless zero in front. -/
def octet? (text : List Char) : Option Nat :=
  if text.length = 1 || text.head? ≠ some '0' then Numeral.decimal? text else none

def item? (text : List Char) : Option (List Nat) :=
  if text.contains '.' then do
    let octets ← (text.splitOn '.').mapM octet?
    if octets.length = 4 then
      let n ← joinParts? 4 octets
      return [n / 65536, n % 65536]
    else none
  else if text.length ≤ 4 then (Numeral.inBase? 16 text).map ([·])
  else none

/-- The groups of items with single colons between them; a short address comes last. -/
def groups? (text : List Char) : Option (List Nat) :=
  if text.isEmpty then some []
  else
    let items := text.splitOn ':'
    if items.dropLast.any (·.contains '.') then none
    else (items.mapM item?).map List.flatten

/-- What stands before and after the first two colons. -/
def cutAtGap? : List Char → Option (List Char × List Char)
  | ':' :: ':' :: after => some ([], after)
  | c :: r => (cutAtGap? r).map fun (before, after) => (c :: before, after)
  | [] => none

/-- The eight groups of a long address. -/
def eightGroups? (text : List Char) : Option (List Nat) := do
  let groups ← match cutAtGap? text with
    | none => groups? text
    | some (before, after) =>
      if before.contains '.' then none
      else
        let before ← groups? before
        let after ← groups? after
        let gap := 8 - (before.length + after.length)
        if gap = 0 then none else some (before ++ List.replicate gap 0 ++ after)
  if groups.length = 8 then some groups else none

/-- What stands before the scope of a long address. A scope is a decimal number of 32 bits. -/
def beforeScope? (text : List Char) : Option (List Char) :=
  match text.span (· ≠ '%') with
  | (address, _ :: scope) => do if (← Numeral.decimal? scope) < UInt32.size then address else none
  | (address, []) => some address

def long? (text : List Char) : Option (BitVec 128) := do
  let groups ← eightGroups? (← beforeScope? text)
  return BitVec.ofNat 128 (groups.foldl (65536 * · + ·) 0)

def ownName : List Char := "localhost".toList

def loopback : IpAddress := short 0x7F000001

/-- The address of a host that is given by its address or is the machine itself. -/
def ofHost? (text : List Char) : Option IpAddress :=
  if text.map Char.toLower = ownName then some loopback
  else ((short? text).map short).or ((long? text).map long)

/-! ## Writing -/

/-- The `count` lowest digits of a number in base `base`, the highest first. -/
def digits (base count n : Nat) : List Nat :=
  (List.range count).reverse.map fun i => n / base ^ i % base

def dotted (bits : BitVec 32) : String :=
  ".".intercalate ((digits 256 4 bits.toNat).map toString)

def colonSeparated (groups : List Nat) : String :=
  ":".intercalate (groups.map fun g => String.ofList (Nat.toDigits 16 g))

def leadingZeros (groups : List Nat) : Nat := (groups.takeWhile (· = 0)).length

/-- Groups as text. The first of the longest runs of zeros becomes a gap, if it is longer
than one group. -/
def compressed (groups : List Nat) : String :=
  let run := fun i => leadingZeros (groups.drop i)
  let i := (List.range groups.length).foldl (fun i k => if run i < run k then k else i) 0
  if run i < 2 then colonSeparated groups
  else colonSeparated (groups.take i) ++ "::" ++ colonSeparated (groups.drop (i + run i))

/-- The short address that an address stands for, if it stands for one. -/
def toShort? : IpAddress → Option (BitVec 32)
  | short bits => some bits
  | long bits => if bits.toNat / UInt32.size = 0xFFFF then some (bits.setWidth 32) else none

def toText : IpAddress → String
  | short bits => dotted bits
  | long bits =>
    match (long bits).toShort? with
    | some bits => "::ffff:" ++ dotted bits
    | none => compressed (digits 65536 8 bits.toNat)

/-! ## Use -/

def isUnspecified : IpAddress → Bool
  | short bits => bits = 0
  | long bits => bits = 0

def overlaps (a b : IpAddress) : Bool :=
  match a.toShort?, b.toShort? with
  | some x, some y => x = y || x = 0 || y = 0
  | _, _ => a = b || a.isUnspecified || b.isUnspecified

/-- Whether a machine on no network takes an address for one of its own: it has no long
addresses but those that stand for short ones. -/
def isOwn (a : IpAddress) : Bool := a.isUnspecified || a.toShort?.isSome

end IpAddress

/-! ## Services on hosts -/

structure SocketAddress where
  host : IpAddress
  service : UInt16
deriving DecidableEq, Repr

namespace SocketAddress

def service? (text : List Char) : Option UInt16 := do
  let n ← Numeral.decimal? text
  if n < 65536 then some (UInt16.ofNat n) else none

/-- A plus sign may stand before the number of a service. -/
def signedService? : List Char → Option UInt16
  | '+' :: digits => service? digits
  | digits => service? digits

def splitLast? (text : List Char) : Option (List Char × List Char) :=
  match text.reverse.span (· ≠ ':') with
  | (service, _ :: host) => some (host.reverse, service.reverse)
  | (_, []) => none

/-- The address that a text names. With a host in brackets the service has no sign. -/
def parse? (text : String) : Option SocketAddress := do
  let (host, service) ← splitLast? text.toList
  match host with
  | '[' :: inner =>
    if inner.getLast? = some ']' then
      return ⟨.long (← IpAddress.long? inner.dropLast), ← service? service⟩
    else none
  | _ => return ⟨← IpAddress.ofHost? host, ← signedService? service⟩

def toText (a : SocketAddress) : String :=
  let host := match a.host with
    | .short _ => a.host.toText
    | .long _ => "[" ++ a.host.toText ++ "]"
  host ++ ":" ++ toString a.service.toNat

def conflicts (a b : SocketAddress) : Bool := a.service = b.service && a.host.overlaps b.host

end SocketAddress

end SearchOverlay
