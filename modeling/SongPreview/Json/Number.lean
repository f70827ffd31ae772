import SongPreview.Json.Reader

/-!
# JSON numbers

An integer without leading zeros, a fraction and an exponent. A number is only ever
passed over, or shown where something else was asked for: as an integer of 64 bits if
it is one, and otherwise as a decimal without zeros at either end.
-/

namespace SongPreview.Json

/-- A number as it is written. -/
structure Numeral where
  negative : Bool
  /-- The digits in front of the point. -/
  whole : List Char
  /-- The digits behind the point. -/
  fraction : List Char
  exponent : Int
  /-- Whether there is neither a point nor an exponent. -/
  integral : Bool
  deriving DecidableEq, Repr

namespace Reader

/-- The longest run of digits, perhaps empty. -/
def digits : Reader (List Char) := fun s =>
  .ok (s.takeWhile Char.isDigit, s.dropWhile Char.isDigit)

/-- The digits in front of the point. -/
def wholeDigits : Reader (List Char) := do
  match ← peek? with
  | some '0' =>
    advance
    match ← peek? with
    | some d => if d.isDigit then stopAt .badNumber else return ['0']
    | none => return ['0']
  | some c =>
    if c.isDigit then digits
    else
      advance
      fun s => .error ⟨.badNumber, c :: s, 1⟩
  | none => stopHere .badNumber

/-- A point and at least one digit, if there is a point. -/
def fractionDigits : Reader (List Char) := do
  if (← peek?) = some '.' then
    advance
    let found ← digits
    if found = [] then stopAt .badNumber else return found
  else return []

/-- The value of a run of decimal digits. -/
def decimalValue (digits : List Char) : Nat :=
  digits.foldl (fun n c => 10 * n + (c.toNat - '0'.toNat)) 0

/-- An exponent, if there is one. -/
def exponent? : Reader (Option Int) := do
  match ← peek? with
  | some 'e' | some 'E' =>
    advance
    let sign ← peek?
    if sign = some '+' ∨ sign = some '-' then advance
    let found ← digits
    if found = [] then
      match ← peek? with
      | some _ => stopAt .badNumber
      | none => stopHere .badNumber
    else
      let n : Int := decimalValue found
      return some (if sign = some '-' then -n else n)
  | _ => return none

/-- A number, behind its sign. -/
def numeral (negative : Bool) : Reader Numeral := do
  let whole ← wholeDigits
  let fraction ← fractionDigits
  let exponent ← exponent?
  return ⟨negative, whole, fraction, exponent.getD 0, fraction.isEmpty && exponent.isNone⟩

end Reader

namespace Numeral

/-- A decimal number from its digits, the first of which stands in front of the point
times ten to the power `scale`. -/
def decimalText (digits : List Char) (scale : Int) : String :=
  let count := digits.length
  let zeros (n : Int) := String.ofList (List.replicate n.toNat '0')
  if 0 ≤ scale ∧ scale < 16 then
    let shown := scale.toNat + 1
    if count ≤ shown then String.ofList digits ++ zeros (shown - count) ++ ".0"
    else String.ofList (digits.take shown) ++ "." ++ String.ofList (digits.drop shown)
  else if -5 ≤ scale ∧ scale < 0 then "0." ++ zeros (-scale - 1) ++ String.ofList digits
  else
    match digits with
    | [d] => String.ofList [d] ++ "e" ++ toString scale
    | _ =>
      String.ofList (digits.take 1) ++ "." ++ String.ofList (digits.drop 1) ++ "e" ++ toString scale

/-- The text of a number that is no integer of 64 bits. -/
def floatText (n : Numeral) : String :=
  let all := n.whole ++ n.fraction
  let significant := all.dropWhile (· = '0')
  let digits := (significant.reverse.dropWhile (· = '0')).reverse
  let scale : Int := n.whole.length - 1 - (all.length - significant.length : Nat) + n.exponent
  let size := if digits = [] then "0.0" else decimalText digits scale
  if n.negative then "-" ++ size else size

/-- How a number is named where something else was asked for. -/
def found (n : Numeral) : String :=
  let size := Reader.decimalValue n.whole
  if n.integral ∧ ¬ n.negative ∧ size < Nat.pow 2 64 then "integer `" ++ toString size ++ "`"
  else if n.integral ∧ n.negative ∧ 0 < size ∧ size ≤ Nat.pow 2 63 then
    "integer `-" ++ toString size ++ "`"
  else "floating point `" ++ n.floatText ++ "`"

end Numeral

end SongPreview.Json
