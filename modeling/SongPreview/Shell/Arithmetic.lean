import SongPreview.Scan
import SongPreview.Shell.Bytes

/-!
# Arithmetic

Expressions over whole numbers of 64 bits, with the operators and the precedence that
they have in scripts. A variable that is not set counts as zero.
-/

namespace SongPreview.Shell

/-- An expression. -/
inductive Expression where
  | number (n : Int)
  | variable (name : String)
  | unary (operator : Char) (operand : Expression)
  | binary (operator : String) (left right : Expression)
  | choice (condition yes no : Expression)
  /-- Sets a variable to the value of an expression, which is also the value. -/
  | assign (name : String) (value : Expression)
  deriving Repr

namespace Expression

/-- Why an expression has no value. -/
inductive Stop where
  | divisionByZero
  | notANumber (text : String)
  | malformed
  deriving DecidableEq, Repr

/-- The operators, longer ones first. -/
def operators : List String :=
  ["<<=", ">>=", "&&", "||", "==", "!=", "<=", ">=", "<<", ">>", "+=", "-=", "*=", "/=", "%=", "&=",
    "^=", "|=", "+", "-", "*", "/", "%", "&", "|", "^", "<", ">", "=", "?", ":", "!", "~", "(", ")"]

/-- The operators with two operands, from the weakest to the strongest. -/
def levels : List (List String) :=
  [["||"], ["&&"], ["|"], ["^"], ["&"], ["==", "!="], ["<=", ">=", "<", ">"], ["<<", ">>"],
    ["+", "-"], ["*", "/", "%"]]

/-- The operator that comes next. -/
def operator? : Scan (Option String) := fun s =>
  let s := s.dropWhile fun c => c == ' ' || c == '\t' || c == '\n'
  some (operators.find? fun op => op.toList.isPrefixOf s, s)

/-- The value of a hexadecimal digit. -/
def digit (c : Char) : Nat :=
  if c.isDigit then c.toNat - '0'.toNat
  else if c.isLower then c.toNat - 'a'.toNat + 10
  else c.toNat - 'A'.toNat + 10

/-- The number of a numeral: octal behind a zero, hexadecimal behind `0x`. -/
def numeral? (s : List Char) : Option Nat :=
  let inBase (base : Nat) (digits : List Char) : Option Nat :=
    if digits ≠ [] ∧ digits.all fun c => c.isAlphanum && digit c < base then
      some (digits.foldl (fun n c => base * n + digit c) 0)
    else none
  match s with
  | '0' :: 'x' :: digits | '0' :: 'X' :: digits => inBase 16 digits
  | '0' :: d :: digits => inBase 8 (d :: digits)
  | _ => inBase 10 s

/-- What is read: an expression of any kind, one whose operators are at least of some
level, more operands of a level, or a single operand. -/
inductive Goal where
  | whole
  | level (n : Nat)
  | more (n : Nat) (left : Expression)
  | operand

/-- Reads parts of an expression: the forms below read with it what stands inside them. -/
abbrev Reader := Goal → Scan Expression

section Forms

variable (read : Reader)

/-- A choice, an assignment, or an expression of operators alone. -/
def wholeForm : Scan Expression := do
  let left ← read (.level 0)
  match left, ← operator? with
  | _, some "?" =>
    Scan.word ['?']
    let yes ← read .whole
    let _ ← operator?
    Scan.word [':']
    return .choice left yes (← read .whole)
  | .variable name, some "=" =>
    Scan.word ['=']
    return .assign name (← read .whole)
  | .variable name, some op =>
    if op.endsWith "=" ∧ (op.dropEnd 1).toString ∈ levels.flatten then
      Scan.word op.toList
      return .assign name (.binary (op.dropEnd 1).toString left (← read .whole))
    else return left
  | _, _ => return left

/-- More operands of a level. -/
def moreForm (n : Nat) (left : Expression) : Scan Expression := do
  match ← operator? with
  | some op =>
    if op ∈ levels.getD n [] then
      Scan.word op.toList
      let right ← read (.level (n + 1))
      read (.more n (.binary op left right))
    else return left
  | none => return left

/-- An operand between parentheses, behind an operator of its own, or without either. -/
def operandForm : Scan Expression := do
  match ← operator? with
  | some "(" =>
    Scan.word ['(']
    let inside ← read .whole
    let _ ← operator?
    Scan.word [')']
    return inside
  | some op =>
    Scan.check (op ∈ ["+", "-", "!", "~"])
    let c ← Scan.one fun _ => true
    return .unary c (← read .operand)
  | none =>
    let found ← Scan.run1 fun c => c.isAlphanum || c == '_'
    match numeral? found with
    | some n => return .number n
    | none =>
      Scan.check (found.head?.any fun c => !c.isDigit)
      return .variable (String.ofList found)

end Forms

/-- Reads an expression. -/
def read : Nat → Reader
  | 0, _ => failure
  | bound + 1, goal =>
    let inner := read bound
    match goal with
    | .whole => wholeForm inner
    | .level n => do
      if n < levels.length then inner (.more n (← inner (.level (n + 1))))
      else inner .operand
    | .more n left => moreForm inner n left
    | .operand => operandForm inner

/-- The expression of a text. A blank text is zero. -/
def parse? (text : String) : Option Expression :=
  let s := text.toList.dropWhile fun c => c == ' ' || c == '\t' || c == '\n'
  if s = [] then some (.number 0)
  else
    Scan.whole (do
      let found ← Scan.bounded fun bound => read (20 * bound) .whole
      let _ ← operator?
      return found) s

/-- A number as far as 64 bits hold it. -/
def wrap (n : Int) : Int := n.bmod (Nat.pow 2 64)

/-- One for what holds, zero for what does not. -/
def truth (b : Bool) : Int := if b then 1 else 0

/-- A number as a row of 64 bits. -/
def bits (n : Int) : UInt64 := UInt64.ofNat (n % Nat.pow 2 64).toNat

/-- The value of an operator with two operands. -/
def combine (operator : String) (a b : Int) : Except Stop Int :=
  match operator with
  | "+" => .ok (wrap (a + b))
  | "-" => .ok (wrap (a - b))
  | "*" => .ok (wrap (a * b))
  | "/" => if b = 0 then .error .divisionByZero else .ok (wrap (a.tdiv b))
  | "%" => if b = 0 then .error .divisionByZero else .ok (wrap (a.tmod b))
  | "<<" => .ok (wrap (bits a <<< bits b).toNat)
  | ">>" => .ok (wrap (a / Nat.pow 2 (b % 64).toNat))
  | "<" => .ok (truth (a < b))
  | ">" => .ok (truth (b < a))
  | "<=" => .ok (truth (a ≤ b))
  | ">=" => .ok (truth (b ≤ a))
  | "==" => .ok (truth (a = b))
  | "!=" => .ok (truth (a ≠ b))
  | "&" => .ok (wrap (bits a &&& bits b).toNat)
  | "^" => .ok (wrap (bits a ^^^ bits b).toNat)
  | "|" => .ok (wrap (bits a ||| bits b).toNat)
  | _ => .error .malformed

/-- Variables that were set on the way, the latest first, before the others. -/
abbrev Settings := List (String × Int)

/-- The value of an expression. -/
def value (lookup : String → String) : Expression → Settings → Except Stop (Int × Settings)
  | .number n, set => .ok (wrap n, set)
  | .variable name, set =>
    match set.lookup name with
    | some n => .ok (n, set)
    | none =>
      let text := (lookup name).trimAscii.toString
      if text = "" then .ok (0, set)
      else
        let (sign, digits) : Int × List Char :=
          match text.toList with
          | '-' :: rest => (-1, rest)
          | '+' :: rest => (1, rest)
          | rest => (1, rest)
        match numeral? digits with
        | some n => .ok (wrap (sign * n), set)
        | none => .error (.notANumber text)
  | .unary operator operand, set => do
    let (n, set) ← value lookup operand set
    return (if operator = '-' then wrap (-n) else if operator = '!' then truth (n = 0)
      else if operator = '~' then -n - 1 else n, set)
  | .binary "&&" left right, set => do
    let (a, set) ← value lookup left set
    if a = 0 then return (0, set)
    let (b, set) ← value lookup right set
    return (truth (b ≠ 0), set)
  | .binary "||" left right, set => do
    let (a, set) ← value lookup left set
    if a ≠ 0 then return (1, set)
    let (b, set) ← value lookup right set
    return (truth (b ≠ 0), set)
  | .binary operator left right, set => do
    let (a, set) ← value lookup left set
    let (b, set) ← value lookup right set
    return (← combine operator a b, set)
  | .choice condition yes no, set => do
    let (c, set) ← value lookup condition set
    if c = 0 then value lookup no set else value lookup yes set
  | .assign name expression, set => do
    let (n, set) ← value lookup expression set
    return (n, (name, n) :: set)

/-- What is said about an expression without a value. -/
def Stop.message (text : String) : Stop → String
  | divisionByZero => "arithmetic expression: division by zero: \"" ++ text ++ "\""
  | notANumber value => "Illegal number: " ++ value
  | malformed => "arithmetic expression: expecting primary: \"" ++ text ++ "\""

end Expression

end SongPreview.Shell
