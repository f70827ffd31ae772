import SongPreview.Colour
import SongPreview.Diagnostic
import SongPreview.Text

/-!
# Reading diagnostics

A renderer writes `source:line: message`, or the same with the source in double
quotes. Every line it writes becomes exactly one diagnostic: a line that does not
begin with the source is a notice about no line in particular.
-/

namespace SongPreview.Diagnostic

/-- The text behind `source:` or `"source":` at the front of a line. An empty
source names nothing. -/
def afterSource? (source line : List Char) : Option (List Char) :=
  if source = [] then none
  else
    let line := Text.trimLeft line
    (Text.behind? (source ++ [':']) line).or
      (Text.behind? (['"'] ++ source ++ ['"', ':']) line)

/-- The value of a run of decimal digits. -/
def numeral (digits : List Char) : Nat :=
  digits.foldl (fun n c => 10 * n + (c.toNat - '0'.toNat)) 0

/-- The line number and the message of the text behind the source: blanks or tabs,
a numeral, a colon and the rest of the line. A numeral of 2^32 or more gives no
number. Any other text is the message as a whole. -/
def splitNumber (rest : List Char) : Option Nat × List Char :=
  let body := rest.dropWhile fun c => c == ' ' || c == '\t'
  let digits := body.takeWhile Char.isDigit
  match body.dropWhile Char.isDigit with
  | ':' :: message =>
    if digits ≠ [] ∧ '\n' ∉ message then
      let n := numeral digits
      (if n < Nat.pow 2 32 then some n else none, Text.trim message)
    else (none, Text.trim rest)
  | _ => (none, Text.trim rest)

/-- Whether a word occurs in a text, in any ASCII case. -/
def mentions (word message : List Char) : Bool :=
  Text.occursIn word (message.map Char.toLower)

/-- The severity that a message announces: the most serious of the words in it. -/
def announced (message : List Char) : Severity :=
  if mentions "error".toList message then .error
  else if mentions "warning".toList message then .warning
  else .notice

/-- The diagnostic that a line of the renderer stands for. -/
def ofLine (source raw : String) (time : Int) : Diagnostic :=
  let line := Text.trimRight (Colour.strip raw.toList)
  match afterSource? source.toList line with
  | none => unattributed .notice (String.ofList (Text.trimLeft line)) time
  | some rest =>
    let (number, message) := splitNumber rest
    ⟨announced message, String.ofList message, number, time⟩

end SongPreview.Diagnostic
