/-!
# The compression function

BLAKE3 hashes by compressing a sixteen-word block under an eight-word chaining
value. The seven rounds mix a sixteen-word state, first along its columns and
then along its diagonals, and permute the message between rounds.
-/

namespace SongPreview.Digest

/-- Sixteen words: a message block, or the state that is mixed. -/
abbrev Block := Vector UInt32 16

/-- Eight words that one compression hands to the next. -/
abbrev Chain := Vector UInt32 8

/-- The initial chaining value of an unkeyed hash. -/
def initialChain : Chain :=
  #v[0x6A09E667, 0xBB67AE85, 0x3C6EF372, 0xA54FF53A,
     0x510E527F, 0x9B05688C, 0x1F83D9AB, 0x5BE0CD19]

/-- A word rotated to the right by less than 32 places. -/
@[inline] def rotateRight (word count : UInt32) : UInt32 :=
  (word >>> count) ||| (word <<< (32 - count))

/-- Mixes two message words into four words of the state. -/
@[inline] def quarter (v : Block) (a b c d : Fin 16) (x y : UInt32) : Block :=
  let va := v[a] + v[b] + x
  let vd := rotateRight (v[d] ^^^ va) 16
  let vc := v[c] + vd
  let vb := rotateRight (v[b] ^^^ vc) 12
  let va := va + vb + y
  let vd := rotateRight (vd ^^^ va) 8
  let vc := vc + vd
  let vb := rotateRight (vb ^^^ vc) 7
  (((v.set a va).set b vb).set c vc).set d vd

/-- One round: four columns, then four diagonals. -/
def round (v m : Block) : Block :=
  let v := quarter v 0 4 8 12 m[0] m[1]
  let v := quarter v 1 5 9 13 m[2] m[3]
  let v := quarter v 2 6 10 14 m[4] m[5]
  let v := quarter v 3 7 11 15 m[6] m[7]
  let v := quarter v 0 5 10 15 m[8] m[9]
  let v := quarter v 1 6 11 12 m[10] m[11]
  let v := quarter v 2 7 8 13 m[12] m[13]
  quarter v 3 4 9 14 m[14] m[15]

/-- The order of the message words in the next round. -/
def permute (m : Block) : Block :=
  #v[m[2], m[6], m[3], m[10], m[7], m[0], m[4], m[13],
     m[1], m[11], m[12], m[5], m[9], m[14], m[15], m[8]]

/-- A number of rounds, with the message permuted after each. -/
def rounds : Nat → Block → Block → Block
  | 0, v, _ => v
  | n + 1, v, m => rounds n (round v m) (permute m)

/-- The chaining value after one block. The counter numbers the chunks, the
length counts the bytes of the block that belong to the message, and the flags
say which part of the tree the block is. -/
def compress (chain : Chain) (block : Block) (counter : UInt64) (length flags : UInt32) : Chain :=
  let v : Block :=
    #v[chain[0], chain[1], chain[2], chain[3], chain[4], chain[5], chain[6], chain[7],
       0x6A09E667, 0xBB67AE85, 0x3C6EF372, 0xA54FF53A,
       counter.toUInt32, (counter >>> 32).toUInt32, length, flags]
  let v := rounds 7 v block
  #v[v[0] ^^^ v[8], v[1] ^^^ v[9], v[2] ^^^ v[10], v[3] ^^^ v[11],
     v[4] ^^^ v[12], v[5] ^^^ v[13], v[6] ^^^ v[14], v[7] ^^^ v[15]]

/-- Flags of the first and last block of a chunk, of an inner node and of the root. -/
def chunkStart : UInt32 := 1
@[inherit_doc chunkStart] def chunkEnd : UInt32 := 2
@[inherit_doc chunkStart] def parentNode : UInt32 := 4
@[inherit_doc chunkStart] def root : UInt32 := 8

end SongPreview.Digest
