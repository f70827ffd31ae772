import SongPreview.Scan
import SongPreview.Shell.Syntax

/-!
# Reading words

A word ends at a blank or an operator that is not quoted. Quotes and backslashes take
the meaning from characters; a dollar sign begins the name of a variable, an
expression or a script whose output is meant.
-/

namespace SongPreview.Shell

/-- The characters that end a word. -/
def endsWord (c : Char) : Bool :=
  c ∈ [' ', '\t', '\n', ';', '&', '|', '<', '>', '(', ')']

/-- The characters of names. -/
def isNameChar (c : Char) : Bool :=
  c.isAlphanum || c == '_'

/-- The characters that a name begins with. -/
def isNameStart (c : Char) : Bool :=
  c.isAlpha || c == '_'

/-- What a scan for a closing character is inside of, from the inside out: the closing
characters that are waited for. -/
abbrev Nest := List Char

/-- The text up to the last closing character of a nest, which is not part of it, and
the text behind it. The characters read so far are held in reverse. -/
def closing (out : List Char) : Nest → List Char → Option (List Char × List Char)
  | _, [] => none
  | [], s => some (out.reverse, s)
  | nest@(wanted :: outer), c :: rest =>
    if c = wanted then
      if outer = [] then some (out.reverse, rest) else closing (c :: out) outer rest
    else if wanted = '\'' then closing (c :: out) nest rest
    else if c = '\\' then
      match rest with
      | [] => none
      | d :: rest => closing (d :: c :: out) nest rest
    else if c = '"' then closing (c :: out) ('"' :: nest) rest
    else if c = '\'' ∧ wanted ≠ '"' then closing (c :: out) ('\'' :: nest) rest
    else if c = '(' ∧ wanted = ')' then closing (c :: out) (')' :: nest) rest
    else if c = '\x7b' ∧ wanted = '\x7d' then closing (c :: out) ('\x7d' :: nest) rest
    else closing (c :: out) nest rest

/-- Scans up to a closing character. -/
def upToClosing (nest : Nest) : Scan String := fun s =>
  (closing [] nest s).map fun (inside, rest) => (String.ofList inside, rest)

/-- The text of a script between backquotes. -/
def backquoted (out : List Char) : List Char → Option (List Char × List Char)
  | [] => none
  | '`' :: rest => some (out.reverse, rest)
  | '\\' :: c :: rest =>
    if c ∈ ['`', '\\', '$'] then backquoted (c :: out) rest else backquoted (c :: '\\' :: out) rest
  | c :: rest => backquoted (c :: out) rest

/-- What is asked of a variable, behind its name in braces. -/
def formOf : List Char → Option Form
  | [] => some .value
  | ':' :: kind :: word =>
    if kind ∈ ['-', '=', '+', '?'] then some (.instead kind true (String.ofList word)) else none
  | '%' :: '%' :: word => some (.without true true (String.ofList word))
  | '%' :: word => some (.without true false (String.ofList word))
  | '#' :: '#' :: word => some (.without false true (String.ofList word))
  | '#' :: word => some (.without false false (String.ofList word))
  | kind :: word =>
    if kind ∈ ['-', '=', '+', '?'] then some (.instead kind false (String.ofList word)) else none

/-- The characters that name a variable of the process itself. -/
def isSpecial (c : Char) : Bool :=
  c ∈ ['@', '*', '#', '?', '-', '$', '!']

/-- The name at the front of a text. -/
def nameOf : List Char → List Char × List Char
  | [] => ([], [])
  | c :: rest =>
    if isNameStart c then ((c :: rest).takeWhile isNameChar, (c :: rest).dropWhile isNameChar)
    else if c.isDigit then ((c :: rest).takeWhile Char.isDigit, (c :: rest).dropWhile Char.isDigit)
    else if isSpecial c then ([c], rest)
    else ([], c :: rest)

/-- The variable of a text between braces. -/
def variableOf (inside : List Char) (quoted : Bool) : Option Piece :=
  match inside with
  | '#' :: c :: rest =>
    let (name, after) := nameOf (c :: rest)
    if name ≠ [] ∧ after = [] then some (.variable (String.ofList name) .length quoted)
    else (formOf (c :: rest)).map fun form => .variable "#" form quoted
  | _ => do
    let (name, after) := nameOf inside
    if name = [] then none
    else return .variable (String.ofList name) (← formOf after) quoted

/-- What a dollar sign begins. -/
def dollar (quoted : Bool) : Scan Piece := do
  match ← Scan.peek? with
  | some '(' =>
    Scan.word ['(']
    let inside ← upToClosing [')']
    match inside.toList with
    | '(' :: body =>
      if body.getLast? = some ')' then return .number (String.ofList body.dropLast) quoted
      else return .output inside quoted
    | _ => return .output inside quoted
  | some '\x7b' =>
    Scan.word ['\x7b']
    let inside ← upToClosing ['\x7d']
    fun s => (variableOf inside.toList quoted).map fun piece => (piece, s)
  | some c =>
    if isNameStart c then
      return .variable (String.ofList (← Scan.run isNameChar)) .value quoted
    else if c.isDigit ∨ isSpecial c then
      let _ ← Scan.one fun _ => true
      return .variable (String.ofList [c]) .value quoted
    else return .text "$" quoted
  | none => return .text "$" quoted

/-- The pieces up to the closing double quote, the last one first. -/
def doubleQuoted : Nat → List Piece → Scan (List Piece)
  | 0, _ => failure
  | bound + 1, out => do
    let c ← Scan.one fun _ => true
    if c = '"' then return out
    else if c = '$' then
      let piece ← dollar true
      doubleQuoted bound (piece :: out)
    else if c = '`' then
      let script ← fun s => (backquoted [] s)
      doubleQuoted bound (.output (String.ofList script) true :: out)
    else if c = '\\' then
      let d ← Scan.one fun _ => true
      if d = '\n' then doubleQuoted bound out
      else if d ∈ ['$', '`', '"', '\\'] then
        doubleQuoted bound (.text (String.ofList [d]) true :: out)
      else doubleQuoted bound (.text (String.ofList [c, d]) true :: out)
    else
      let run ← Scan.run fun d => d ∉ ['"', '$', '`', '\\']
      doubleQuoted bound (.text (String.ofList (c :: run)) true :: out)

/-- The pieces of a word, the last one first. -/
def wordPieces : Nat → List Piece → Scan (List Piece)
  | 0, _ => failure
  | bound + 1, out => do
    match ← Scan.peek? with
    | none => return out
    | some c =>
      if endsWord c then return out
      else
        let _ ← Scan.one fun _ => true
        if c = '\'' then
          let inside ← upToClosing ['\'']
          wordPieces bound (.text inside true :: out)
        else if c = '"' then
          let inside ← doubleQuoted bound []
          let inside := if inside = [] then [Piece.text "" true] else inside
          wordPieces bound (inside ++ out)
        else if c = '$' then
          let piece ← dollar false
          wordPieces bound (piece :: out)
        else if c = '`' then
          let script ← fun s => (backquoted [] s)
          wordPieces bound (.output (String.ofList script) false :: out)
        else if c = '\\' then
          match ← Scan.peek? with
          | none => return .text "\\" true :: out
          | some d =>
            let _ ← Scan.one fun _ => true
            wordPieces bound (if d = '\n' then out else .text (String.ofList [d]) true :: out)
        else
          let run ← Scan.run fun d => !endsWord d && d ∉ ['\'', '"', '$', '`', '\\']
          wordPieces bound (.text (String.ofList (c :: run)) false :: out)

/-- A word, perhaps without pieces. -/
def word : Scan Word :=
  Scan.bounded fun bound => do return (← wordPieces bound []).reverse

/-- The pieces of a text in which only dollar signs, backquotes and backslashes have a
meaning. -/
def textPieces (s : String) : Word :=
  ((Scan.bounded fun bound => doubleQuoted bound []) (s.toList ++ ['"'])).elim
    [.text s true] fun (pieces, _) => pieces.reverse

/-- The pieces of a whole text as one word. Blanks and operators have no meaning. -/
def wordOf (s : String) (quoted : Bool) : Word :=
  if quoted then textPieces s
  else
    let rec loop : Nat → List Piece → List Char → List Piece
      | 0, out, _ => out
      | _, out, [] => out
      | bound + 1, out, s@(c :: rest) =>
        if endsWord c then loop bound (.text (String.ofList [c]) false :: out) rest
        else
          match wordPieces (s.length + 1) [] s with
          | some (pieces, rest) => loop bound (pieces ++ out) rest
          | none => .text (String.ofList s) false :: out
    (loop (s.length + 1) [] s.toList).reverse

end SongPreview.Shell
