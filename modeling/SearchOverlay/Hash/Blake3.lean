import SearchOverlay.Bytes

/-!
# The BLAKE3 hash

The input is cut into chunks of 1024 bytes. A chunk folds the compression function over
its blocks of 64 bytes; the chunks are the leaves of a binary tree whose left subtrees are
full. The digest is the first 32 bytes of the root node's output.
-/

namespace SearchOverlay.Blake3

-- powers are those of the core library, whatever else is imported
attribute [local instance (high)] instPowNat

abbrev Words := Array UInt32

def iv : Words :=
  #[0x6A09E667, 0xBB67AE85, 0x3C6EF372, 0xA54FF53A, 0x510E527F, 0x9B05688C, 0x1F83D9AB, 0x5BE0CD19]

/-- The order in which a round reads the message words of the round before it. -/
def permutation : List Nat := [2, 6, 3, 10, 7, 0, 4, 13, 1, 11, 12, 5, 9, 14, 15, 8]

/-- The index quadruples of the eight mixings of a round: columns, then diagonals. -/
def mixings : List (Nat × Nat × Nat × Nat) :=
  [(0, 4, 8, 12), (1, 5, 9, 13), (2, 6, 10, 14), (3, 7, 11, 15),
   (0, 5, 10, 15), (1, 6, 11, 12), (2, 7, 8, 13), (3, 4, 9, 14)]

namespace Flag

def chunkStart : UInt32 := 1
def chunkEnd : UInt32 := 2
def parent : UInt32 := 4
def root : UInt32 := 8

end Flag

def rotateRight (w n : UInt32) : UInt32 := (w >>> n) ||| (w <<< (32 - n))

def mix (v : Words) (q : Nat × Nat × Nat × Nat) (x y : UInt32) : Words :=
  let (i, j, k, l) := q
  let a := v.getD i 0 + v.getD j 0 + x
  let d := rotateRight (v.getD l 0 ^^^ a) 16
  let c := v.getD k 0 + d
  let b := rotateRight (v.getD j 0 ^^^ c) 12
  let a := a + b + y
  let d := rotateRight (d ^^^ a) 8
  let c := c + d
  let b := rotateRight (b ^^^ c) 7
  (((v.setIfInBounds i a).setIfInBounds j b).setIfInBounds k c).setIfInBounds l d

def round (v m : Words) : Words :=
  (mixings.zipIdx).foldl (fun v (q, i) => mix v q (m.getD (2 * i) 0) (m.getD (2 * i + 1) 0)) v

def rounds : Nat → Words → Words → Words
  | 0, v, _ => v
  | n + 1, v, m => rounds n (round v m) (permutation.map fun i => m.getD i 0).toArray

/-- The compression function, with the chaining value that its output feeds forward. -/
def compress (cv block : Words) (counter : UInt64) (len flags : UInt32) : Words :=
  let v := cv ++ iv.take 4 ++ #[counter.toUInt32, (counter >>> 32).toUInt32, len, flags]
  let w := rounds 7 v block
  (Array.range 8).map fun i => w.getD i 0 ^^^ w.getD (i + 8) 0

/-- The words of a block of at most 64 bytes, filled up with zero words. -/
def blockWords (b : Bytes) : Words :=
  (Array.range 16).map fun i =>
    UInt32.ofNat (Bytes.ofLittleEndian ((b.drop (4 * i)).take 4))

/-- A node of the tree before its last compression, which differs at the root. -/
structure Node where
  cv : Words
  block : Words
  counter : UInt64
  len : UInt32
  flags : UInt32

def Node.chainingValue (n : Node) : Words := compress n.cv n.block n.counter n.len n.flags

def Node.rootValue (n : Node) : Words := compress n.cv n.block 0 n.len (n.flags ||| Flag.root)

/-- The node of one chunk: all blocks but the last are compressed into the chaining value.
`n` bounds the number of blocks. -/
def chunkNode (counter : UInt64) : Nat → Words → UInt32 → Bytes → Node
  | 0, cv, start, b =>
    ⟨cv, blockWords b, counter, UInt32.ofNat b.length, start ||| Flag.chunkEnd⟩
  | n + 1, cv, start, b =>
    if b.length ≤ 64 then
      ⟨cv, blockWords b, counter, UInt32.ofNat b.length, start ||| Flag.chunkEnd⟩
    else
      chunkNode counter n (compress cv (blockWords (b.take 64)) counter 64 start) 0 (b.drop 64)

def parentNode (left right : Words) : Node := ⟨iv, left ++ right, 0, 64, Flag.parent⟩

/-- The chunks of the left subtree over `n ≥ 2` chunks: the largest power of two below `n`. -/
def leftChunks (n : Nat) : Nat := 2 ^ (n - 1).log2

/-- The tree over the `n` chunks of `b`, the first of which has index `counter`. `depth` bounds
the height of the tree. -/
def treeNode : Nat → Nat → Nat → Bytes → Node
  | 0, counter, _, b => chunkNode (UInt64.ofNat counter) 16 iv Flag.chunkStart b
  | depth + 1, counter, n, b =>
    if n ≤ 1 then chunkNode (UInt64.ofNat counter) 16 iv Flag.chunkStart b
    else
      let left := leftChunks n
      parentNode (treeNode depth counter left (b.take (1024 * left))).chainingValue
        (treeNode depth (counter + left) (n - left) (b.drop (1024 * left))).chainingValue

def digest (b : Bytes) : Bytes :=
  let chunks := (b.length + 1023) / 1024
  ((treeNode (chunks.log2 + 1) 0 chunks b).rootValue.toList.take 8).flatMap fun w =>
    Bytes.littleEndian 4 w.toNat

end SearchOverlay.Blake3
