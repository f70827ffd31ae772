/-!
# Reading bytes as text

A byte string that may be ill-formed is read with one replacement character for
every maximal ill-formed subsequence: the longest beginning of a well-formed
sequence, or a single byte.
-/

namespace SongPreview.Utf8

/-- What the first byte of a longer sequence asks for: how many bytes follow,
which range the next one has to lie in, and the bits gathered so far. -/
structure Lead where
  following : Nat
  low : UInt8
  high : UInt8
  bits : Nat

/-- The lead bytes of sequences of two, three and four bytes. The narrower
ranges exclude overlong forms, surrogates and values past the last scalar. -/
def Lead.ofByte? (b : UInt8) : Option Lead :=
  if 0xC2 ≤ b && b ≤ 0xDF then some ⟨1, 0x80, 0xBF, b.toNat - 0xC0⟩
  else if b == 0xE0 then some ⟨2, 0xA0, 0xBF, 0⟩
  else if b == 0xED then some ⟨2, 0x80, 0x9F, 0xD⟩
  else if 0xE1 ≤ b && b ≤ 0xEF then some ⟨2, 0x80, 0xBF, b.toNat - 0xE0⟩
  else if b == 0xF0 then some ⟨3, 0x90, 0xBF, 0⟩
  else if 0xF1 ≤ b && b ≤ 0xF3 then some ⟨3, 0x80, 0xBF, b.toNat - 0xF0⟩
  else if b == 0xF4 then some ⟨3, 0x80, 0x8F, 4⟩
  else none

/-- Reads the bytes that follow a lead byte. The result is the value, or nothing
where a byte is missing or out of range, and the bytes not used. -/
def continuation : (following : Nat) → (low high : UInt8) → (bits : Nat) → List UInt8 →
    Option Nat × List UInt8
  | 0, _, _, bits, rest => (some bits, rest)
  | _ + 1, _, _, _, [] => (none, [])
  | n + 1, low, high, bits, b :: rest =>
    if low ≤ b && b ≤ high then
      continuation n 0x80 0xBF (bits * 64 + (b.toNat - 0x80)) rest
    else (none, b :: rest)

/-- One character, or nothing for an ill-formed subsequence, and the bytes after it. -/
def next (b : UInt8) (rest : List UInt8) : Option Char × List UInt8 :=
  if b < 0x80 then (some (Char.ofNat b.toNat), rest)
  else
    match Lead.ofByte? b with
    | none => (none, rest)
    | some lead =>
      let (value, after) := continuation lead.following lead.low lead.high lead.bits rest
      (value.map Char.ofNat, after)

theorem length_continuation_le (n : Nat) (low high : UInt8) (bits : Nat) (s : List UInt8) :
    (continuation n low high bits s).2.length ≤ s.length := by
  induction n generalizing low high bits s with
  | zero => simp [continuation]
  | succ n ih =>
    cases s with
    | nil => simp [continuation]
    | cons b rest =>
      simp only [continuation]
      split
      · have := ih 0x80 0xBF (bits * 64 + (b.toNat - 0x80)) rest
        simp only [List.length_cons]
        omega
      · simp

theorem length_next_le (b : UInt8) (rest : List UInt8) : (next b rest).2.length ≤ rest.length := by
  unfold next
  split
  · simp
  · split
    · simp
    · exact length_continuation_le _ _ _ _ _

/-- The character that stands for an ill-formed subsequence. -/
def replacement : Char := '\ufffd'

/-- Decodes onto the characters read so far, which are held in reverse. -/
def decodeOnto (out : List Char) : List UInt8 → List Char
  | [] => out.reverse
  | b :: rest =>
    let step := next b rest
    decodeOnto (step.1.getD replacement :: out) step.2
termination_by s => s.length
decreasing_by
  have := length_next_le b rest
  simp only [List.length_cons]
  omega

/-- The text of a byte string, with a replacement character for every maximal
ill-formed subsequence. -/
def decode (bytes : List UInt8) : List Char :=
  decodeOnto [] bytes

/-- The string of a byte string, with replacement characters where it is ill-formed. -/
def decodeString (bytes : ByteArray) : String :=
  String.ofList (decode bytes.toList)

end SongPreview.Utf8
