import SongPreview.Digest.Compression

/-!
# The hash tree

A message is cut into chunks of 1024 bytes, a chunk into blocks of 64. The
chunks are the leaves of a tree whose left subtrees hold as many chunks as the
largest power of two that leaves something for the right. The root is compressed
with a flag of its own, and its chaining value is the digest.
-/

namespace SongPreview.Digest

/-- The little-endian word at a position; bytes past the end are zero. -/
@[inline] def wordAt (bytes : ByteArray) (i : Nat) : UInt32 :=
  let byte (k : Nat) : UInt32 := if h : i + k < bytes.size then bytes[i + k].toUInt32 else 0
  byte 0 ||| (byte 1 <<< 8) ||| (byte 2 <<< 16) ||| (byte 3 <<< 24)

/-- The block at a position, filled with zeros past the end of the message. -/
def blockAt (bytes : ByteArray) (i : Nat) : Block :=
  Vector.ofFn fun k : Fin 16 => wordAt bytes (i + 4 * k.val)

/-- Compresses the blocks of one chunk from position `i` to `stop`. The first
carries the start flag, the last the end flag and the flags of the whole chunk. -/
def chunkFrom (bytes : ByteArray) (counter : UInt64) (last : UInt32) (stop i : Nat)
    (start : UInt32) (chain : Chain) : Chain :=
  if i + 64 < stop then
    chunkFrom bytes counter last stop (i + 64) 0
      (compress chain (blockAt bytes i) counter 64 start)
  else
    compress chain (blockAt bytes i) counter (UInt32.ofNat (stop - i))
      (start ||| chunkEnd ||| last)
termination_by stop - i
decreasing_by omega

/-- How many of a number of chunks go to the left: the largest power of two that
leaves at least one. -/
def leftChunks (chunks : Nat) : Nat :=
  Nat.pow 2 (Nat.log2 (chunks - 1))

theorem leftChunks_pos (chunks : Nat) : 0 < leftChunks chunks :=
  Nat.two_pow_pos _

theorem leftChunks_lt {chunks : Nat} (h : 1 < chunks) : leftChunks chunks < chunks := by
  have := Nat.log2_self_le (n := chunks - 1) (by omega)
  simp only [leftChunks, Nat.pow_eq]
  omega

/-- The chaining value of the subtree of `chunks` chunks from chunk `first` on.
The flags are those that the subtree's root carries beside its own. -/
def subtree (bytes : ByteArray) (first chunks : Nat) (flags : UInt32) : Chain :=
  if h : 1 < chunks then
    let left := subtree bytes first (leftChunks chunks) 0
    let right := subtree bytes (first + leftChunks chunks) (chunks - leftChunks chunks) 0
    compress initialChain (left ++ right) 0 64 (parentNode ||| flags)
  else
    chunkFrom bytes (UInt64.ofNat first) flags (min bytes.size (1024 * (first + 1))) (1024 * first)
      chunkStart initialChain
termination_by chunks
decreasing_by
  · exact leftChunks_lt h
  · have := leftChunks_pos chunks
    omega

/-- How many chunks a message has; an empty message is one empty chunk. -/
def chunkCount (bytes : ByteArray) : Nat :=
  max 1 ((bytes.size + 1023) / 1024)

/-- The four bytes of a word, lowest first. -/
def wordBytes (w : UInt32) : List UInt8 :=
  [w.toUInt8, (w >>> 8).toUInt8, (w >>> 16).toUInt8, (w >>> 24).toUInt8]

/-- The 32 bytes of the digest of a message. -/
def digestBytes (bytes : ByteArray) : List UInt8 :=
  (subtree bytes 0 (chunkCount bytes) root).toList.flatMap wordBytes

end SongPreview.Digest
