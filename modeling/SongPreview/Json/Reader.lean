/-!
# Reading JSON

A reader takes a value from the front of a text and leaves the rest. Where it fails it
says why, and how far it had come: that becomes a line and a column of the text.
-/

namespace SongPreview.Json

/-- Why a text is not the JSON that was asked for. -/
inductive Fault where
  | endInList
  | endInObject
  | endInString
  | endInValue
  | noColon
  | noListComma
  | noObjectComma
  | noWord
  | noValue
  | badEscape
  | badNumber
  | numberRange
  | controlCharacter
  | keyNotString
  | loneSurrogate
  | cutSurrogate
  | trailingComma
  | trailingText
  /-- A value of another type than the one that was asked for. -/
  | wrongType (found expected : String)
  /-- A field that was there before. -/
  | repeatedField (name : String)
  deriving DecidableEq, Repr

/-- The wording of a fault. -/
def Fault.message : Fault → String
  | endInList => "EOF while parsing a list"
  | endInObject => "EOF while parsing an object"
  | endInString => "EOF while parsing a string"
  | endInValue => "EOF while parsing a value"
  | noColon => "expected `:`"
  | noListComma => "expected `,` or `]`"
  | noObjectComma => "expected `,` or `\x7d`"
  | noWord => "expected ident"
  | noValue => "expected value"
  | badEscape => "invalid escape"
  | badNumber => "invalid number"
  | numberRange => "number out of range"
  | controlCharacter =>
    "control character (\\u0000-\\u001F) found while parsing a string"
  | keyNotString => "key must be a string"
  | loneSurrogate => "lone leading surrogate in hex escape"
  | cutSurrogate => "unexpected end of hex escape"
  | trailingComma => "trailing comma"
  | trailingText => "trailing characters"
  | wrongType found expected => "invalid type: " ++ found ++ ", expected " ++ expected
  | repeatedField name => "duplicate field `" ++ name ++ "`"

/-- A fault and its place: the text that was left, and how many bytes of it count as
read. -/
structure Stop where
  fault : Fault
  left : List Char
  ahead : Nat
  deriving DecidableEq, Repr

/-- Takes a value from the front of a text. -/
abbrev Reader := StateT (List Char) (Except Stop)

/-- The place of a stop in the whole text: the line, and the bytes in it so far. -/
def Stop.position (whole : String) (stop : Stop) : Nat × Nat :=
  let bytes := whole.toUTF8.toList
  let offset := bytes.length - (String.ofList stop.left).utf8ByteSize + stop.ahead
  let before := bytes.take offset
  (before.count 10 + 1, (before.reverse.takeWhile (· ≠ 10)).length)

/-- The wording of a stop. -/
def Stop.message (whole : String) (stop : Stop) : String :=
  let (line, column) := stop.position whole
  stop.fault.message ++ " at line " ++ toString line ++ " column " ++ toString column

namespace Reader

/-- Stops in front of the text that is left. -/
def stopHere {α : Type} (fault : Fault) : Reader α := fun s =>
  .error ⟨fault, s, 0⟩

/-- Stops at the next character. -/
def stopAt {α : Type} (fault : Fault) : Reader α := fun s =>
  .error ⟨fault, s, 1⟩

/-- The blanks between tokens. -/
def isBlank (c : Char) : Bool :=
  c = ' ' ∨ c = '\n' ∨ c = '\t' ∨ c = '\r'

/-- Goes over blanks to the next character, which is not read. -/
def next? : Reader (Option Char) := fun s =>
  let s := s.dropWhile isBlank
  .ok (s.head?, s)

/-- Goes over blanks to the next character. There has to be one. -/
def next (fault : Fault) : Reader Char := do
  match ← next? with
  | some c => return c
  | none => stopAt fault

/-- Reads the next character, whichever it is. -/
def advance : Reader Unit := fun s => .ok ((), s.drop 1)

/-- The next character. -/
def peek? : Reader (Option Char) := fun s => .ok (s.head?, s)

/-- The rest of a word of letters. -/
def word : List Char → Reader Unit
  | [] => pure ()
  | c :: cs => do
    match ← peek? with
    | none => stopHere .endInValue
    | some d =>
      advance
      if c = d then word cs else stopHere .noWord

/-- A colon between a key and its value. -/
def colon : Reader Unit := do
  if (← next .endInObject) = ':' then advance else stopAt .noColon

/-- What begins in front of the next element of a list: another one, or nothing. -/
def anotherElement (first : Bool) : Reader Bool := do
  match ← next .endInList with
  | ']' => return false
  | c =>
    if first then return true
    else if c = ',' then
      advance
      if (← next .endInValue) = ']' then stopAt .trailingComma else return true
    else stopAt .noListComma

/-- What begins in front of the next member of an object: another one, or nothing. -/
def anotherMember (first : Bool) : Reader Bool := do
  match ← next .endInObject with
  | '\x7d' => return false
  | c =>
    if first then (if c = '"' then return true else stopAt .keyNotString)
    else if c = ',' then
      advance
      match ← next .endInValue with
      | '"' => return true
      | '\x7d' => stopAt .trailingComma
      | _ => stopAt .keyNotString
    else stopAt .noObjectComma

/-- The end of a list. -/
def closeList : Reader Unit := do
  match ← next .endInList with
  | ']' => advance
  | ',' =>
    advance
    if (← next?) = some ']' then stopAt .trailingComma else stopAt .trailingText
  | _ => stopAt .trailingText

/-- Nothing but blanks. -/
def finish : Reader Unit := do
  if (← next?).isSome then stopAt .trailingText

/-- Runs a reader that gets the length of the text to bound its loops by. -/
def bounded {α : Type} (reader : Nat → Reader α) : Reader α := fun s => reader (s.length + 1) s

end Reader

end SongPreview.Json
