import SearchOverlay.Bytes

/-!
# The SHA-1 digest

Five 32-bit words. `digest` pads the message to whole 64-byte blocks and folds the
compression function over them.
-/

namespace SearchOverlay.Sha1

/-- A digest, and the chaining value between two blocks. -/
structure State where
  a : UInt32
  b : UInt32
  c : UInt32
  d : UInt32
  e : UInt32
deriving DecidableEq, Repr

def initial : State :=
  ⟨0x67452301, 0xEFCDAB89, 0x98BADCFE, 0x10325476, 0xC3D2E1F0⟩

def State.add (s t : State) : State :=
  ⟨s.a + t.a, s.b + t.b, s.c + t.c, s.d + t.d, s.e + t.e⟩

def rotateLeft (w n : UInt32) : UInt32 := (w <<< n) ||| (w >>> (32 - n))

/-- The mixing word of round `t`: the round function of its quarter and that quarter's constant. -/
def mix (t : Nat) (b c d : UInt32) : UInt32 :=
  if t < 20 then ((b &&& c) ||| ((~~~ b) &&& d)) + 0x5A827999
  else if t < 40 then (b ^^^ c ^^^ d) + 0x6ED9EBA1
  else if t < 60 then ((b &&& c) ||| (b &&& d) ||| (c &&& d)) + 0x8F1BBCDC
  else (b ^^^ c ^^^ d) + 0xCA62C1D6

def round (t : Nat) (w : UInt32) (s : State) : State :=
  ⟨rotateLeft s.a 5 + mix t s.b s.c s.d + s.e + w, s.a, rotateLeft s.b 30, s.c, s.d⟩

/-- Extends a schedule of at least sixteen words by `n` more. -/
def extend : Nat → Array UInt32 → Array UInt32
  | 0, w => w
  | n + 1, w =>
    let t := w.size
    let next := w.getD (t - 3) 0 ^^^ w.getD (t - 8) 0 ^^^ w.getD (t - 14) 0 ^^^ w.getD (t - 16) 0
    extend n (w.push (rotateLeft next 1))

def blockWords : Bytes → Array UInt32 → Array UInt32
  | a :: b :: c :: d :: r, w =>
    blockWords r (w.push
      ((a.toUInt32 <<< 24) ||| (b.toUInt32 <<< 16) ||| (c.toUInt32 <<< 8) ||| d.toUInt32))
  | _, w => w

def rounds (w : Array UInt32) : Nat → State → State
  | 0, s => s
  | n + 1, s => rounds w n (round (79 - n) (w.getD (79 - n) 0) s)

def compress (s : State) (block : Bytes) : State :=
  s.add (rounds (extend 64 (blockWords block #[])) 80 s)

/-- Folds the compression function over the 64-byte blocks of `b`, at most `n` of them. -/
def foldBlocks : Nat → State → Bytes → State
  | 0, s, _ => s
  | n + 1, s, b =>
    match b with
    | [] => s
    | _ :: _ => foldBlocks n (compress s (b.take 64)) (b.drop 64)

/-- What follows a message of `n` bytes: a one bit, zeros, and the length in bits. -/
def padding (n : Nat) : Bytes :=
  0x80 :: (List.replicate ((119 - n % 64) % 64) 0 ++ Bytes.bigEndian 8 (8 * n))

def digest (message : Bytes) : State :=
  let n := message.length
  foldBlocks (n / 64 + 2) initial (message ++ padding n)

end SearchOverlay.Sha1
