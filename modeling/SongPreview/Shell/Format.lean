import SongPreview.Shell.Bytes

/-!
# Formatted output

A format is a text with escapes and directives. Every directive takes the next argument;
the format is used again as long as arguments are left. The shell has its own form of
the command, which differs from the program's in its escapes and in what it says about
mistakes.
-/

namespace SongPreview.Shell.Format

/-- Whose form of the command it is. -/
inductive Dialect where
  | shell
  | program
  deriving DecidableEq, Repr

/-- What an escape stands for. -/
inductive Escape where
  | char (c : Char)
  /-- Nothing more is written. -/
  | stop
  deriving DecidableEq, Repr

/-- Whether a character is an octal digit. -/
def isOctal (c : Char) : Bool := '0' ≤ c && c ≤ '7'

/-- The byte of up to three octal digits, and what follows them. -/
def octal (s : List Char) : Char × List Char :=
  let digits := (s.take 3).takeWhile isOctal
  let n := digits.foldl (fun n c => 8 * n + (c.toNat - '0'.toNat)) 0
  (Char.ofNat (n % 256), s.drop digits.length)

/-- The escapes of one letter. -/
def letterEscapes : List (Char × Char) :=
  [('\\', '\\'), ('a', '\x07'), ('b', '\x08'), ('f', '\x0c'), ('n', '\n'), ('r', '\r'), ('t', '\t'),
    ('v', '\x0b')]

/-- The value of a hexadecimal digit. -/
def hexValue (c : Char) : Nat :=
  if c.isDigit then c.toNat - '0'.toNat else c.toLower.toNat - 'a'.toNat + 10

/-- Whether a character is a hexadecimal digit. -/
def isHex (c : Char) : Bool := c.isDigit || ('a' ≤ c.toLower && c.toLower ≤ 'f')

/-- What stands behind a backslash, in a format or in an argument that has escapes. -/
def escape (dialect : Dialect) (inArgument : Bool) (s : List Char) : Escape × List Char :=
  match s with
  | [] => (.char '\\', [])
  | c :: rest =>
    if c = 'c' ∧ (inArgument ∨ dialect = .program) then (.stop, rest)
    else if inArgument ∧ c = '0' ∧ rest.head?.any isOctal then
      let (byte, rest) := octal rest
      (.char byte, rest)
    else if isOctal c then
      let (byte, rest) := octal s
      (.char byte, rest)
    else
      match letterEscapes.lookup c with
      | some d => (.char d, rest)
      | none =>
        if dialect = .program ∧ c = '"' then (.char '"', rest)
        else if dialect = .program ∧ c = 'e' then (.char '\x1b', rest)
        else if dialect = .program ∧ c = 'x' ∧ rest.head?.any isHex then
          let digits := (rest.take 2).takeWhile isHex
          (.char (Char.ofNat (digits.foldl (fun n d => 16 * n + hexValue d) 0)),
            rest.drop digits.length)
        else (.char '\\', s)

/-- A text with its escapes carried out, and whether it stops the output. The first
number bounds the text; the text so far is held in reverse. -/
def unescape (dialect : Dialect) : Nat → List Char → List Char → String × Bool
  | 0, out, _ | _, out, [] => (String.ofList out.reverse, false)
  | bound + 1, out, '\\' :: rest =>
    match escape dialect true rest with
    | (.stop, _) => (String.ofList out.reverse, true)
    | (.char c, rest) => unescape dialect bound (c :: out) rest
  | bound + 1, out, c :: rest => unescape dialect bound (c :: out) rest

/-- A text with its escapes carried out, and whether it stops the output. -/
def unescaped (dialect : Dialect) (s : String) : String × Bool :=
  unescape dialect s.length [] s.toList

/-- A directive: its flags, its width, its precision and its letter. -/
structure Directive where
  flags : List Char := []
  width : Nat := 0
  precision : Option Nat := none
  letter : Char := 's'
  deriving DecidableEq, Repr

/-- A text with blanks up to the width. -/
def Directive.fill (d : Directive) (text : String) : String :=
  let blanks := "".pushn ' ' (d.width - text.length)
  if '-' ∈ d.flags then text ++ blanks else blanks ++ text

/-- Digits behind a sign, with zeros up to the precision or the width. -/
def Directive.number (d : Directive) (sign digits : String) : String :=
  let wanted :=
    match d.precision with
    | some n => n
    | none => if '0' ∈ d.flags ∧ '-' ∉ d.flags then d.width - sign.length else 0
  d.fill (sign ++ "".pushn '0' (wanted - digits.length) ++ digits)

/-- A whole number with its sign. -/
def Directive.signed (d : Directive) (n : Int) : String :=
  let sign :=
    if n < 0 then "-" else if '+' ∈ d.flags then "+" else if ' ' ∈ d.flags then " " else ""
  d.number sign (if n = 0 ∧ d.precision = some 0 then "" else toString n.natAbs)

/-- A whole number without a sign in a base. -/
def Directive.unsigned (d : Directive) (base : Nat) (n : Int) : String :=
  let n := (n % Nat.pow 2 64).toNat
  let digits := if n = 0 ∧ d.precision = some 0 then "" else String.ofList (Nat.toDigits base n)
  let alternate := '#' ∈ d.flags ∧ n ≠ 0
  let text :=
    if alternate ∧ base = 8 then d.number "" ("0" ++ digits)
    else if alternate ∧ base = 16 then d.number "0x" digits
    else d.number "" digits
  if d.letter = 'X' then text.toUpper else text

/-- A decimal fraction: sign, numerator and the number of its places. -/
def decimalFraction? (s : List Char) : Option (Bool × Nat × Nat) :=
  let (negative, s) :=
    match s with
    | '-' :: rest => (true, rest)
    | '+' :: rest => (false, rest)
    | _ => (false, s)
  let whole := s.takeWhile Char.isDigit
  let places :=
    match s.dropWhile Char.isDigit with
    | '.' :: rest => if rest.all Char.isDigit then some rest else none
    | [] => some []
    | _ => none
  places.bind fun places =>
    if whole ++ places = [] then none
    else some (negative, (whole ++ places).foldl (fun n c => 10 * n + (c.toNat - '0'.toNat)) 0,
      places.length)

/-- A decimal fraction with a number of places, a half rounded to the even neighbour. -/
def Directive.fraction (d : Directive) (negative : Bool) (numerator places : Nat) : String :=
  let wanted := d.precision.getD 6
  let n := numerator * Nat.pow 10 wanted
  let unit := Nat.pow 10 places
  let q := n / unit
  let twice := 2 * (n % unit)
  let q := if twice < unit then q else if unit < twice then q + 1 else q + q % 2
  let digits := toString (q % Nat.pow 10 wanted)
  let text := toString (q / Nat.pow 10 wanted) ++
    if wanted = 0 then "" else "." ++ "".pushn '0' (wanted - digits.length) ++ digits
  { d with precision := none }.number
    (if negative then "-" else if '+' ∈ d.flags then "+" else "") text

/-- Output in the making. -/
structure Printing where
  arguments : List String
  /-- The texts so far, the latest first. -/
  out : List String := []
  /-- What is said about mistakes, the latest first. -/
  errors : List String := []
  /-- Nothing more is written. -/
  stopped : Bool := false
  /-- The command is given up with this status. -/
  abandoned : Option Nat := none
  /-- Whether the format has a directive. -/
  directives : Bool := false

namespace Printing

/-- The next argument, if there is one. -/
def next (p : Printing) : Option String × Printing :=
  match p.arguments with
  | [] => (none, p)
  | a :: rest => (some a, { p with arguments := rest })

/-- Writes a text. -/
def put (p : Printing) (text : String) : Printing := { p with out := text :: p.out }

/-- Says something about a mistake. -/
def say (p : Printing) (text : String) : Printing := { p with errors := text :: p.errors }

/-- A numeral at the front of a text: its value, and what follows it. -/
def numeral (s : List Char) : Option (Int × List Char) :=
  let s := s.dropWhile fun c => c == ' ' || c == '\t' || c == '\n'
  let (sign, s) : Int × List Char :=
    match s with
    | '-' :: rest => (-1, rest)
    | '+' :: rest => (1, rest)
    | _ => (1, s)
  let inBase (base : Nat) (isDigit : Char → Bool) (s : List Char) : Option (Int × List Char) :=
    let digits := s.takeWhile isDigit
    if digits = [] then none
    else
      let value : Nat := digits.foldl (fun n c => base * n + hexValue c) 0
      some (sign * value, s.drop digits.length)
  match s with
  | '0' :: 'x' :: rest | '0' :: 'X' :: rest =>
    if rest.head?.any isHex then inBase 16 isHex rest else some (0, s.drop 1)
  | '0' :: _ => inBase 8 isOctal s
  | _ => inBase 10 Char.isDigit s

/-- The number that an argument stands for. A quote stands before a character whose
number is meant. -/
def integer (dialect : Dialect) (p : Printing) : Int × Printing :=
  match p.next with
  | (none, p) => (0, p)
  | (some a, p) =>
    let quoted (a : String) := if dialect = .program then "'" ++ a ++ "'" else a
    let article :=
      if dialect = .program then "expected a numeric value" else "expected numeric value"
    let partly := if dialect = .program then "value not completely converted" else
      "not completely converted"
    match a.toList with
    | '\'' :: c :: _ | '"' :: c :: _ => (c.toNat, p)
    | s =>
      match numeral s with
      | none =>
        if a = "" ∧ dialect = .shell then (0, p) else (0, p.say (quoted a ++ ": " ++ article))
      | some (n, []) => (n, p)
      | some (n, _) => (n, p.say (quoted a ++ ": " ++ partly))

/-- A width or a precision: a number in the format, or an asterisk for an argument. -/
def size (dialect : Dialect) (p : Printing) : List Char → Option Int × Printing × List Char
  | '*' :: rest =>
    let (n, p) := p.integer dialect
    (some n, p, rest)
  | s =>
    let digits := s.takeWhile Char.isDigit
    (if digits = [] then none
      else some (digits.foldl (fun n c => 10 * n + (c.toNat - '0'.toNat)) 0 : Nat), p,
      s.drop digits.length)

/-- Writes what a directive asks for. -/
def direct (dialect : Dialect) (p : Printing) (d : Directive) (text : String) : Printing :=
  match d.letter with
  | 's' =>
    let (a, p) := p.next
    let a := a.getD ""
    p.put (d.fill (d.precision.elim a fun n => (a.take n).toString))
  | 'b' =>
    let (a, p) := p.next
    let (a, stopped) := unescaped dialect (a.getD "")
    { p.put (d.fill (d.precision.elim a fun n => (a.take n).toString)) with stopped }
  | 'c' =>
    let (a, p) := p.next
    p.put (d.fill (String.ofList [(a.getD "").toList.head?.getD '\x00']))
  | 'd' | 'i' =>
    let (n, p) := p.integer dialect
    p.put (d.signed n)
  | 'u' =>
    let (n, p) := p.integer dialect
    p.put (d.unsigned 10 n)
  | 'o' =>
    let (n, p) := p.integer dialect
    p.put (d.unsigned 8 n)
  | 'x' | 'X' =>
    let (n, p) := p.integer dialect
    p.put (d.unsigned 16 n)
  | 'f' | 'F' =>
    let (a, p) := p.next
    match decimalFraction? (a.getD "0").toList with
    | some (negative, n, places) => p.put (d.fraction negative n places)
    | none => (p.put (d.fraction false 0 0)).say ((a.getD "") ++ ": expected numeric value")
  | _ =>
    match dialect with
    | .shell => { p.say (text ++ ": invalid directive") with abandoned := some 2 }
    | .program => { p.say (text ++ ": invalid conversion specification") with abandoned := some 1 }

/-- Goes over a format once. The first number bounds the format. -/
def pass (dialect : Dialect) : Nat → List Char → Printing → Printing
  | 0, _, p | _, [], p => p
  | bound + 1, c :: rest, p =>
    if p.stopped ∨ p.abandoned.isSome then p
    else if c = '\\' then
      match escape dialect false rest with
      | (.stop, _) => { p with stopped := true }
      | (.char d, rest) => pass dialect bound rest (p.put (String.ofList [d]))
    else if c ≠ '%' then
      let run := rest.takeWhile fun d => d ≠ '\\' ∧ d ≠ '%'
      pass dialect bound (rest.drop run.length) (p.put (String.ofList (c :: run)))
    else if rest.head? = some '%' then pass dialect bound (rest.drop 1) (p.put "%")
    else
      let flags := rest.takeWhile fun d => d ∈ ['#', '-', '+', ' ', '0']
      let (width, p, after) := p.size dialect (rest.drop flags.length)
      let (precision, p, after) : Option Nat × Printing × List Char :=
        match after with
        | '.' :: after =>
          let (n, p, after) := p.size dialect after
          (some (n.getD 0).toNat, p, after)
        | _ => (none, p, after)
      let flags := if width.any (· < 0) then '-' :: flags else flags
      match after with
      | [] => { p.say "missing format character" with abandoned := some 2 }
      | letter :: after =>
        let text := String.ofList ('%' :: rest.take (rest.length - after.length))
        let d : Directive := ⟨flags, (width.getD 0).natAbs, precision, letter⟩
        pass dialect bound after ({ p with directives := true }.direct dialect d text)

/-- Goes over a format as long as arguments are left. -/
def passes (dialect : Dialect) (format : String) : Nat → Printing → Printing
  | 0, p => p
  | bound + 1, p =>
    let before := p.arguments.length
    let p := pass dialect format.length format.toList p
    if p.arguments = [] ∨ p.arguments.length = before ∨ p.stopped ∨ p.abandoned.isSome then p
    else passes dialect format bound p

end Printing

/-- What a formatted output writes, what it says about mistakes, and its status. -/
structure Result where
  text : String
  errors : List String
  status : Nat
  deriving DecidableEq, Repr

/-- The output of a format and its arguments. -/
def run (dialect : Dialect) (format : String) (arguments : List String) : Result :=
  let p := Printing.passes dialect format (arguments.length + 1) { arguments }
  let errors := p.errors.reverse
  let extra :=
    match dialect, p.directives, p.arguments with
    | .program, false, a :: _ =>
      if p.stopped then []
      else ["warning: ignoring excess arguments, starting with '" ++ a ++ "'"]
    | _, _, _ => []
  ⟨String.join p.out.reverse, errors ++ extra,
    p.abandoned.getD (if errors.isEmpty then 0 else 1)⟩

/-- The words of an echo whose escapes are carried out. -/
def echoed (dialect : Dialect) : List String → List String → String
  | out, [] => String.join out.reverse ++ "\n"
  | out, [w] =>
    let (text, stopped) := unescaped dialect w
    String.join (text :: out).reverse ++ if stopped then "" else "\n"
  | out, w :: rest =>
    let (text, stopped) := unescaped dialect w
    if stopped then String.join (text :: out).reverse
    else echoed dialect (" " :: text :: out) rest

end SongPreview.Shell.Format
