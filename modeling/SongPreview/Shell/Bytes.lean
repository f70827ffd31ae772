import SongPreview.Utf8

/-!
# Texts of bytes

Programs work on bytes. A text of bytes is a string in which every character stands for
the byte of its number.
-/

namespace SongPreview.Shell

/-- The text of some bytes. -/
def ofBytes (bytes : ByteArray) : String :=
  bytes.foldl (fun s b => s.push (Char.ofNat b.toNat)) ""

/-- The bytes of a text. -/
def toBytes (s : String) : ByteArray :=
  s.foldl (fun bytes c => bytes.push (UInt8.ofNat c.toNat)) .empty

/-- The text of the bytes of a string. -/
def raw (s : String) : String :=
  ofBytes s.toUTF8

/-- The string that the bytes of a text are. -/
def cooked (s : String) : String :=
  Utf8.decodeString (toBytes s)

/-- The decimal value of a text of digits. -/
def decimal? (s : String) : Option Nat :=
  if s ≠ "" ∧ s.all Char.isDigit then
    some (s.foldl (fun n c => 10 * n + (c.toNat - '0'.toNat)) 0)
  else none

/-- The value of a decimal numeral with or without a sign. -/
def integer? (s : String) : Option Int :=
  match s.toList with
  | '-' :: rest => (decimal? (String.ofList rest)).map fun n => -(n : Int)
  | '+' :: rest => (decimal? (String.ofList rest)).map Int.ofNat
  | _ => (decimal? s).map Int.ofNat

/-- The text up to a character, and the text behind it. -/
def splitAtChar (c : Char) (s : List Char) : List Char × List Char :=
  (s.takeWhile (· ≠ c), (s.dropWhile (· ≠ c)).drop 1)

/-- The lines of a text, each with its line break if it has one. -/
def linesOf (s : String) : List String :=
  let (lines, last) := s.foldl (fun (acc : List String × String) c =>
    if c = '\n' then (acc.2.push c :: acc.1, "") else (acc.1, acc.2.push c)) ([], "")
  (if last = "" then lines else last :: lines).reverse

end SongPreview.Shell
