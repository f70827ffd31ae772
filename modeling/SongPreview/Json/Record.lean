import SongPreview.Json.Number
import SongPreview.Json.Text
import SongPreview.Text

/-!
# JSON records

A record is an object with known fields. Fields may come in any order and may be left
out; none may come twice. Other members are passed over, whatever they hold. A record
may also be written as a list of its fields in order.
-/

namespace SongPreview.Json

/-- What a value that is passed over is inside of. -/
inductive Frame where
  | list
  | object
  deriving DecidableEq, Repr

namespace Frame

/-- The character that ends it. -/
def closer : Frame → Char
  | list => ']'
  | object => '\x7d'

/-- The fault of a text that ends in it. -/
def cut : Frame → Fault
  | list => .endInList
  | object => .endInObject

/-- The fault of a value with something else than a comma behind it. -/
def noComma : Frame → Fault
  | list => .noListComma
  | object => .noObjectComma

end Frame

namespace Reader

/-- Reads the beginning of a value that is passed over: all of it, or the bracket in
front of its parts. -/
def passStart : Reader (Option Frame) := do
  match ← next .endInValue with
  | 'n' => advance; word ['u', 'l', 'l']; return none
  | 't' => advance; word ['r', 'u', 'e']; return none
  | 'f' => advance; word ['a', 'l', 's', 'e']; return none
  | '-' => advance; let _ ← numeral false; return none
  | '"' => advance; (passCharacters : Reader Unit); return none
  | '[' => advance; return some .list
  | '\x7b' => advance; return some .object
  | c => if c.isDigit then (do let _ ← numeral false; return none) else stopAt .noValue

/-- Reads what stands behind a value or an opening bracket: closing brackets, and a
comma. The result lists what is still open, from the inside out; nothing is open if
the whole value was passed over. Behind an opening bracket there is no comma. -/
def passEnd (comma : Bool) (inside : Frame) (outside : List Frame) :
    List Char → Except Stop (List Frame × List Char)
  | [] => .error ⟨inside.cut, [], 1⟩
  | c :: rest =>
    if isBlank c then passEnd comma inside outside rest
    else if comma ∧ c = ',' then .ok (inside :: outside, rest)
    else if c = inside.closer then
      match outside with
      | [] => .ok ([], rest)
      | frame :: outside => passEnd true frame outside rest
    else if comma then .error ⟨inside.noComma, c :: rest, 1⟩
    else .ok (inside :: outside, c :: rest)

/-- Reads a key that is passed over, and its colon, if an object is open. -/
def passKey : Frame → Reader Unit
  | .list => pure ()
  | .object => do
    if (← next .endInObject) = '"' then
      advance
      (passCharacters : Reader Unit)
      colon
    else stopAt .keyNotString

/-- Passes over a value and everything that is open around it. -/
def passOpen : Nat → List Frame → Reader Unit
  | 0, _ => stopHere .noValue
  | bound + 1, opened => do
    let start ← passStart
    match start, opened with
    | none, [] => pure ()
    | none, frame :: outside =>
      let opened ← passEnd true frame outside
      match opened with
      | [] => pure ()
      | frame :: outside => passKey frame; passOpen bound (frame :: outside)
    | some frame, outside =>
      let opened ← passEnd false frame outside
      match opened with
      | [] => pure ()
      | frame :: outside => passKey frame; passOpen bound (frame :: outside)

/-- Passes over a value of any type and depth. -/
def pass : Reader Unit :=
  bounded fun bound => passOpen bound []

/-- Stops at a value of another type than the one that was asked for. A value without
parts is read first. -/
def refuse {α : Type} (expected : String) (c : Char) : Reader α := do
  let stop (found : String) : Reader α := stopHere (.wrongType found expected)
  match c with
  | 'n' => advance; word ['u', 'l', 'l']; stop "null"
  | 't' => advance; word ['r', 'u', 'e']; stop "boolean `true`"
  | 'f' => advance; word ['a', 'l', 's', 'e']; stop "boolean `false`"
  | '-' => advance; stop (← numeral true).found
  | '"' => advance; stop ("string " ++ Text.quoted (← characters))
  | '[' => stop "sequence"
  | '\x7b' => stop "map"
  | c => if c.isDigit then (do stop (← numeral false).found) else stopAt .noValue

/-- A string. -/
def text : Reader String := do
  match ← next .endInValue with
  | '"' => advance; characters
  | c => refuse "a string" c

/-- A string or nothing. -/
def textOrNull : Reader (Option String) := do
  if (← next?) = some 'n' then
    advance
    word ['u', 'l', 'l']
    return none
  else return some (← text)

/-- The rest of a list, behind its opening bracket or an element. -/
def elements {α : Type} (element : Reader α) : Nat → Bool → List α → Reader (List α)
  | 0, _, _ => stopHere .noValue
  | bound + 1, first, out => do
    if ← anotherElement first then
      let value ← element
      elements element bound false (value :: out)
    else
      advance
      return out.reverse

/-- A list of values of one kind. -/
def list {α : Type} (element : Reader α) : Reader (List α) := do
  match ← next .endInValue with
  | '[' =>
    advance
    bounded fun bound => elements element bound true []
  | c => refuse "a sequence" c

end Reader

/-- A field of a record: its name, and a reader of its value that puts it into the
record. -/
structure Field (σ : Type) where
  name : String
  read : σ → Reader σ

namespace Reader

/-- The rest of an object, behind its opening bracket or a member. A field that comes
again is noticed at its key. -/
def members {σ : Type} (fields : List (Field σ)) : Nat → Bool → List String → σ → Reader σ
  | 0, _, _, _ => stopHere .noValue
  | bound + 1, first, seen, record => do
    if ← anotherMember first then
      advance
      let key ← characters
      match fields.find? fun f => f.name = key with
      | none =>
        colon
        pass
        members fields bound false seen record
      | some field =>
        if key ∈ seen then
          if (← next?) = some '\x7d' then advance
          stopHere (.repeatedField key)
        else
          colon
          let record ← field.read record
          members fields bound false (key :: seen) record
    else
      advance
      return record

/-- The fields of a record that is written as a list. Those at the end may be left
out. -/
def inOrder {σ : Type} : List (Field σ) → Bool → σ → Reader σ
  | [], _, record => return record
  | field :: fields, first, record => do
    if ← anotherElement first then
      inOrder fields false (← field.read record)
    else return record

/-- A record with its fields. Those that are left out stay as they are in `record`. -/
def record {σ : Type} (name : String) (fields : List (Field σ)) (record : σ) : Reader σ := do
  match ← next .endInValue with
  | '[' =>
    advance
    let record ← inOrder fields true record
    closeList
    return record
  | '\x7b' =>
    advance
    bounded fun bound => members fields bound true [] record
  | c => refuse ("struct " ++ name) c

/-- Reads a whole text. -/
def whole {α : Type} (reader : Reader α) (s : String) : Except Stop α :=
  (do let value ← reader; finish; return value).run' s.toList

end Reader

end SongPreview.Json
