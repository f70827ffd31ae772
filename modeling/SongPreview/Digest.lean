import SongPreview.Digest.Tree

/-!
# Content digests

The identity of a text or of a list of texts, as a BLAKE3 digest. A list is
written out with the length of every part in front of it, so that different
lists never run together to the same bytes.
-/

namespace SongPreview

/-- A digest of 256 bits, as its bytes. -/
structure Digest where
  bytes : List UInt8
  deriving DecidableEq, Repr

namespace Digest

/-- The digest of some bytes. -/
def of (content : ByteArray) : Digest :=
  ⟨digestBytes content⟩

/-- The eight bytes of a number, lowest first. -/
def lengthBytes (n : Nat) : List UInt8 :=
  (List.range 8).map fun i => UInt8.ofNat (n / Nat.pow 256 i)

/-- A list of parts as one byte string: each part behind its length. -/
def delimit (parts : List ByteArray) : ByteArray :=
  parts.foldl (fun out part => out ++ ⟨(lengthBytes part.size).toArray⟩ ++ part) ByteArray.empty

/-- The digest of a list of parts. -/
def ofParts (parts : List ByteArray) : Digest :=
  of (delimit parts)

/-- Two lower-case hexadecimal digits. -/
def byteHex (b : UInt8) : String :=
  String.ofList [Nat.digitChar (b.toNat / 16), Nat.digitChar (b.toNat % 16)]

/-- The digest in hexadecimal. -/
def hex (d : Digest) : String :=
  String.join (d.bytes.map byteHex)

/-- The short name: the digest's first sixteen hexadecimal digits. -/
def short (d : Digest) : String :=
  String.join ((d.bytes.take 8).map byteHex)

/-- The first eight bytes as a number, lowest first. -/
def word64 (d : Digest) : Nat :=
  (d.bytes.take 8).foldr (fun b n => b.toNat + 256 * n) 0

end Digest

end SongPreview
