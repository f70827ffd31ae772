import SongPreview.Scan
import SongPreview.Toml.Value

/-!
# TOML scalars

The written forms of numbers, dates and truth values. Each function decides
whether a whole token is such a form.
-/

namespace SongPreview.Toml

/-- The value of a digit of any base up to sixteen. -/
def digitValue (c : Char) : Nat :=
  if c.isDigit then c.toNat - '0'.toNat
  else c.toLower.toNat - 'a'.toNat + 10

/-- The value of a run of digits. -/
def digitsValue (base : Nat) (digits : List Char) : Nat :=
  digits.foldl (fun n c => base * n + digitValue c) 0

/-- Digits with single underscores between them; the underscores are left out. -/
def grouped? (p : Char → Bool) : List Char → Option (List Char)
  | [] => none
  | [c] => if p c then some [c] else none
  | c :: '_' :: rest => if p c then (grouped? p rest).map (c :: ·) else none
  | c :: rest => if p c then (grouped? p rest).map (c :: ·) else none

/-- A digit of a base. -/
def isDigitOf (base : Nat) (c : Char) : Bool :=
  if base ≤ 10 then c.isDigit && digitValue c < base
  else c.isDigit || ('a' ≤ c.toLower && c.toLower ≤ 'f')

/-- Whether an integer fits into 64 bits. -/
def fits64 (n : Int) : Bool :=
  -(Nat.pow 2 63 : Int) ≤ n && n < Nat.pow 2 63

/-- A token without its sign; the flag says whether it was a minus. -/
def signed : List Char → Bool × List Char
  | '-' :: rest => (true, rest)
  | '+' :: rest => (false, rest)
  | rest => (false, rest)

/-- Decimal digits without a leading zero. -/
def plainDigits? (s : List Char) : Option (List Char) :=
  (grouped? Char.isDigit s).filter fun digits => digits.length = 1 || digits.head? != some '0'

/-- The value of an integer: decimal with an optional sign, or hexadecimal, octal
or binary without one. -/
def integer? (token : List Char) : Option Int :=
  let n : Option Int :=
    match token with
    | '0' :: 'x' :: rest => (grouped? (isDigitOf 16) rest).map fun d => digitsValue 16 d
    | '0' :: 'o' :: rest => (grouped? (isDigitOf 8) rest).map fun d => digitsValue 8 d
    | '0' :: 'b' :: rest => (grouped? (isDigitOf 2) rest).map fun d => digitsValue 2 d
    | _ =>
      let (negative, rest) := signed token
      (plainDigits? rest).map fun d =>
        let n : Int := digitsValue 10 d
        if negative then -n else n
  n.filter fits64

/-- Whether `digits · 10^exponent` is too large for a double. The first bound only
keeps the numbers small. -/
def overflowsDouble (digits : Nat) (exponent : Int) : Bool :=
  let magnitude := (toString digits).length + exponent
  if digits = 0 || magnitude < 300 then false
  else if 320 < magnitude then true
  else
    let limit := Nat.pow 2 1024 - Nat.pow 2 970
    if exponent < 0 then limit * Nat.pow 10 exponent.natAbs ≤ digits
    else limit ≤ digits * Nat.pow 10 exponent.natAbs

/-- Whether a token is a decimal: an integer part, then a fraction or an exponent or
both; or one of the special words. A positive one has to fit into a double. -/
def isDecimal (token : List Char) : Bool :=
  let (negative, body) := signed token
  if body = "inf".toList ∨ body = "nan".toList then true
  else
    let isMark (c : Char) := c == 'e' || c == 'E'
    let mantissa := body.takeWhile fun c => !isMark c
    let exponent := (body.dropWhile fun c => !isMark c).drop 1
    let whole := mantissa.takeWhile (· != '.')
    let fraction := (mantissa.dropWhile (· != '.')).drop 1
    let hasExponent := body.any isMark
    let hasFraction := mantissa.contains '.'
    let (down, exponentBody) := signed exponent
    match plainDigits? whole,
        (if hasFraction then grouped? Char.isDigit fraction else some []),
        (if hasExponent then grouped? Char.isDigit exponentBody else some []) with
    | some whole, some fraction, some e =>
      let e : Int := digitsValue 10 e
      let e : Int := (if down then -e else e) - fraction.length
      (hasFraction || hasExponent) &&
        (negative || !overflowsDouble (digitsValue 10 (whole ++ fraction)) e)
    | _, _, _ => false

/-- How many days a month has. -/
def daysIn (year month : Nat) : Nat :=
  if month = 2 then
    if year % 4 = 0 ∧ (year % 100 ≠ 0 ∨ year % 400 = 0) then 29 else 28
  else if month ∈ [4, 6, 9, 11] then 30 else 31

/-- A number of exactly `n` digits within limits. -/
def field (n low high : Nat) : Scan (List Char) := do
  let digits ← Scan.exactly n Char.isDigit
  let value := digitsValue 10 digits
  Scan.check (low ≤ value && value ≤ high)
  return digits

/-- A calendar date. -/
def date : Scan (List Char) := do
  let year ← field 4 0 9999
  Scan.word ['-']
  let month ← field 2 1 12
  Scan.word ['-']
  let day ← field 2 1 (daysIn (digitsValue 10 year) (digitsValue 10 month))
  return year ++ ['-'] ++ month ++ ['-'] ++ day

/-- The fraction of a second, to nine places and without trailing zeros. -/
def secondFraction (digits : List Char) : List Char :=
  let kept := ((digits.take 9).reverse.dropWhile (· == '0')).reverse
  if kept = [] then [] else '.' :: kept

/-- A time of day. -/
def timeOfDay : Scan (List Char) := do
  let hour ← field 2 0 23
  Scan.word [':']
  let minute ← field 2 0 59
  Scan.word [':']
  let second ← field 2 0 60
  let fraction ←
    (do Scan.word ['.']; return secondFraction (← Scan.run1 Char.isDigit)) <|> pure []
  return hour ++ [':'] ++ minute ++ [':'] ++ second ++ fraction

/-- An offset from universal time. -/
def zoneOffset : Scan (List Char) :=
  (do let _ ← Scan.one fun c => c == 'Z' || c == 'z'; return ['Z']) <|> do
    let sign ← Scan.one fun c => c == '+' || c == '-'
    let hour ← field 2 0 23
    Scan.word [':']
    let minute ← field 2 0 59
    let zero := digitsValue 10 (hour ++ minute) = 0
    return (if zero then '+' else sign) :: hour ++ [':'] ++ minute

/-- A time, alone or with a date in front of it and an offset behind. -/
def dateTime : Scan (List Char) :=
  (do
    let day ← date
    (do
      let _ ← Scan.one fun c => c == 'T' || c == 't' || c == ' '
      let time ← timeOfDay
      let zone ← zoneOffset <|> pure []
      return day ++ ['T'] ++ time ++ zone) <|> pure day) <|> timeOfDay

/-- A character of an unquoted scalar. -/
def isTokenChar (c : Char) : Bool :=
  c.isAlphanum || c == '_' || c == '+' || c == '-' || c == '.' || c == ':'

/-- A date or time, or else an unquoted token of another kind. -/
def scalar : Scan Value :=
  (do
    let s ← dateTime
    Scan.check (((← Scan.peek?).map isTokenChar) != some true)
    return .dateTime (String.ofList s)) <|> do
    let token ← Scan.run1 isTokenChar
    if token = "true".toList then return .boolean true
    else if token = "false".toList then return .boolean false
    else
      match integer? token with
      | some n => return .integer n
      | none =>
        Scan.check (isDecimal token)
        return .decimal

end SongPreview.Toml
