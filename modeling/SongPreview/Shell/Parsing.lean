import SongPreview.Shell.WordParsing

/-!
# Reading scripts

A script is a list of commands that are separated by semicolons, ampersands and line
breaks. Reserved words have their meaning only where a command may begin.
-/

namespace SongPreview.Shell

/-- Goes over blanks, joined lines and comments. -/
def blanks : Nat → Scan Unit
  | 0 => pure ()
  | bound + 1 => fun s =>
    match s with
    | ' ' :: rest | '\t' :: rest | '\\' :: '\n' :: rest => blanks bound rest
    | '#' :: rest => some ((), rest.dropWhile (· ≠ '\n'))
    | _ => some ((), s)

/-- Goes over blanks and comments. -/
def skipBlanks : Scan Unit := Scan.bounded blanks

/-- Goes over blanks, comments and line breaks. -/
def lineBreaks : Nat → Scan Unit
  | 0 => pure ()
  | bound + 1 => do
    skipBlanks
    if (← Scan.peek?) = some '\n' then
      let _ ← Scan.one fun _ => true
      lineBreaks bound

/-- Goes over blanks, comments and line breaks. -/
def skipLines : Scan Unit := Scan.bounded lineBreaks

/-- Whether a text comes next. -/
def comesNext (text : String) : Scan Bool := fun s =>
  some (text.toList.isPrefixOf s, s)

/-- The reserved words. -/
def reserved : List String :=
  ["if", "then", "elif", "else", "fi", "while", "until", "do", "done", "for", "in", "case", "esac",
    "\x7b", "\x7d", "!"]

/-- The reserved words that end a list. -/
def closers : List String := ["then", "elif", "else", "fi", "do", "done", "esac", "\x7d"]

/-- The reserved word that comes next. -/
def nextReserved : Scan (Option String) := fun s =>
  let found := String.ofList (s.takeWhile fun c => !endsWord c)
  some (if found ∈ reserved then some found else none, s)

/-- A given reserved word. -/
def keyword (w : String) : Scan Unit := do
  skipLines
  let found ← nextReserved
  Scan.check (found = some w)
  Scan.word w.toList

/-- Where the line breaks of a script were: how many it has in all. -/
abbrev LineCount := Nat

/-- The number of the line that is left. -/
def lineNumber (lines : LineCount) : Scan Nat := fun s =>
  some (lines - s.count '\n' + 1, s)

/-- The lines of a text in the script, up to one that is the mark alone. -/
def hereLines (mark : String) (tabs : Bool) (out : List String) :
    List String → String × List String
  | [] => ("".intercalate out.reverse, [])
  | line :: rest =>
    let line := if tabs then String.ofList (line.toList.dropWhile (· = '\t')) else line
    if (if line.endsWith "\n" then (line.dropEnd 1).toString else line) = mark then
      ("".intercalate out.reverse, rest)
    else hereLines mark tabs (line :: out) rest

/-- The lines of a text, each with its break. -/
def splitLines (s : List Char) : List String :=
  let parts := (String.ofList s).splitOn "\n"
  (parts.dropLast.map (· ++ "\n")) ++ (parts.getLast?.toList.filter (· ≠ ""))

/-- Takes a text in the script out of the lines that follow. -/
def hereText (mark : String) (tabs : Bool) : Scan String := fun s =>
  let line := s.takeWhile (· ≠ '\n')
  let (body, rest) := hereLines mark tabs [] (splitLines ((s.dropWhile (· ≠ '\n')).drop 1))
  some (body, line ++ '\n' :: ("".intercalate rest).toList)

/-- The unquoted text of a word. -/
def plainText (w : Word) : String :=
  String.join (w.map fun
    | .text s _ => s
    | _ => "")

/-- Whether a word is quoted anywhere. -/
def isQuoted (w : Word) : Bool :=
  w.any fun
    | .text _ quoted => quoted
    | _ => false

/-- A redirection, if one comes next. -/
def redirect? : Scan (Option Redirect) := fun s =>
  let digits := s.takeWhile Char.isDigit
  match s.dropWhile Char.isDigit with
  | c :: rest =>
    if c = '<' ∨ c = '>' then
      let number (default : Nat) : Nat :=
        if digits = [] then default
        else digits.foldl (fun n d => 10 * n + (d.toNat - '0'.toNat)) 0
      let target (make : Word → Target) (default : Nat) (rest : List Char) :
          Option (Option Redirect × List Char) := do
        let (_, rest) ← skipBlanks rest
        let (w, rest) ← word rest
        if w = [] then none else return (some ⟨number default, make w⟩, rest)
      match c, rest with
      | '>', '>' :: rest => target .append 1 rest
      | '>', '&' :: rest => target .same 1 rest
      | '>', '|' :: rest => target .write 1 rest
      | '>', rest => target .write 1 rest
      | _, '<' :: rest => do
        let (tabs, rest) :=
          match rest with
          | '-' :: rest => (true, rest)
          | _ => (false, rest)
        let (_, rest) ← skipBlanks rest
        let (w, rest) ← word rest
        let (body, rest) ← hereText (plainText w) tabs rest
        let pieces := if isQuoted w then [Piece.text body true] else textPieces body
        return (some ⟨number 0, .text pieces⟩, rest)
      | _, '&' :: rest => target .same 0 rest
      | _, '>' :: rest => target .read 0 rest
      | _, rest => target .read 0 rest
    else some (none, s)
  | [] => some (none, s)

/-- Redirections behind a command. -/
def redirects : Nat → List Redirect → Scan (List Redirect)
  | 0, _ => failure
  | bound + 1, out => do
    skipBlanks
    match ← redirect? with
    | some r => redirects bound (r :: out)
    | none => return out.reverse

/-- The name of an assignment that comes next, without its equals sign. -/
def assignment? : Scan (Option String) := fun s =>
  match s with
  | c :: _ =>
    if isNameStart c ∧ (s.dropWhile isNameChar).head? = some '=' then
      some (some (String.ofList (s.takeWhile isNameChar)), (s.dropWhile isNameChar).drop 1)
    else some (none, s)
  | [] => some (none, s)

/-- The parts of a simple command. -/
structure Parts where
  assignments : List (String × Word) := []
  words : List Word := []
  redirects : List Redirect := []

/-- Reads the parts of a simple command, which are held in reverse. -/
def simpleParts : Nat → Parts → Scan Parts
  | 0, _ => failure
  | bound + 1, parts => do
    skipBlanks
    match ← redirect? with
    | some r => simpleParts bound { parts with redirects := r :: parts.redirects }
    | none =>
      match ← Scan.peek? with
      | none => return parts
      | some c =>
        if endsWord c then return parts
        else
          let name ← if parts.words = [] then assignment? else pure none
          let w ← word
          match name with
          | some name =>
            simpleParts bound { parts with assignments := (name, w) :: parts.assignments }
          | none => simpleParts bound { parts with words := w :: parts.words }

/-- A simple command. -/
def simple (lines : LineCount) : Scan Script := do
  let line ← lineNumber lines
  let parts ← Scan.bounded fun bound => simpleParts bound {}
  Scan.check (!(parts.assignments.isEmpty && parts.words.isEmpty && parts.redirects.isEmpty))
  return .simple line parts.assignments.reverse parts.words.reverse parts.redirects.reverse

/-- The name of a function whose body comes next. -/
def functionName? : Scan (Option String) := fun s =>
  match s with
  | c :: _ =>
    let after := (s.dropWhile isNameChar).dropWhile fun c => c == ' ' || c == '\t'
    match after with
    | '(' :: after =>
      match after.dropWhile fun c => c == ' ' || c == '\t' with
      | ')' :: rest =>
        if isNameStart c then some (some (String.ofList (s.takeWhile isNameChar)), rest)
        else some (none, s)
      | _ => some (none, s)
    | _ => some (none, s)
  | [] => some (none, s)

/-- The words behind `in`. -/
def listWords : Nat → List Word → Scan (List Word)
  | 0, _ => failure
  | bound + 1, out => do
    skipBlanks
    match ← Scan.peek? with
    | none => return out.reverse
    | some c => if endsWord c then return out.reverse else listWords bound ((← word) :: out)

/-- The patterns of a choice, up to the closing parenthesis. -/
def choicePatterns : Nat → List Word → Scan (List Word)
  | 0, _ => failure
  | bound + 1, out => do
    skipBlanks
    let w ← word
    skipBlanks
    let c ← Scan.one fun _ => true
    if c = '|' then choicePatterns bound (w :: out)
    else
      Scan.check (c = ')')
      return (w :: out).reverse

/-- Whether a list ends here. -/
def listEnds : Scan Bool := do
  match ← Scan.peek? with
  | none => return true
  | some ')' => return true
  | some ';' => comesNext ";;"
  | some _ =>
    match ← nextReserved with
    | some w => return w ∈ closers
    | none => return false

/-- What is read: a list of commands, one joined command, a row of commands whose output
goes on, one command, or what follows a word that opens one. -/
inductive Goal where
  | list (before : Script)
  | joined
  | joinedAfter (before : Script)
  | row
  | command
  | branchBody
  | clauses (subject : Word)

/-- Reads parts of a script: the forms below read with it what stands inside them. -/
abbrev Reader := Goal → Scan Script

/-- Two scripts one after the other. -/
def Script.andThen : Script → Script → Script
  | .skip, after => after
  | before, .skip => before
  | before, after => .sequence before after

section Forms

variable (lines : LineCount) (read : Reader)

/-- A list inside another form. -/
def innerList : Scan Script := do
  skipLines
  read (.list .skip)

/-- A command of a list, if the list goes on, and the commands behind it. -/
def listForm (before : Script) : Scan Script := do
  skipLines
  if ← listEnds then return before
  else
    let command ← read .joined
    skipBlanks
    match ← Scan.peek? with
    | some ';' =>
      if ← comesNext ";;" then return before.andThen command
      else
        Scan.word [';']
        read (.list (before.andThen command))
    | some '&' =>
      Scan.word ['&']
      read (.list (before.andThen (.background command)))
    | some '\n' => read (.list (before.andThen command))
    | _ =>
      Scan.check (← listEnds)
      return before.andThen command

/-- What is joined to a command by what it ends with. -/
def joinedForm (before : Script) : Scan Script := do
  skipBlanks
  if ← comesNext "&&" then
    Scan.word ['&', '&']
    skipLines
    read (.joinedAfter (.both before (← read .row)))
  else if ← comesNext "||" then
    Scan.word ['|', '|']
    skipLines
    read (.joinedAfter (.either before (← read .row)))
  else return before

/-- Commands whose output goes on to the next one, perhaps negated. -/
def rowForm : Scan Script := do
  skipBlanks
  if (← nextReserved) = some "!" then
    Scan.word ['!']
    return .negated (← read .row)
  else
    let left ← read .command
    skipBlanks
    if (← Scan.peek?) = some '|' ∧ ¬ (← comesNext "||") then
      Scan.word ['|']
      skipLines
      return .pipe left (← read .row)
    else return left

/-- A list between parentheses. -/
def subshellForm : Scan Script := do
  Scan.word ['(']
  let body ← innerList read
  skipLines
  Scan.word [')']
  return .subshell body

/-- A list between braces. -/
def groupForm : Scan Script := do
  Scan.word ['\x7b']
  let body ← innerList read
  keyword "\x7d"
  return body

/-- A loop that an opening word begins, with a condition that may stand for its opposite. -/
def loopForm (opening : String) (negated : Bool) : Scan Script := do
  Scan.word opening.toList
  let condition ← innerList read
  keyword "do"
  let body ← innerList read
  keyword "done"
  return .loop negated condition body

/-- A loop over words, or over the arguments if no words are given. -/
def eachForm : Scan Script := do
  Scan.word "for".toList
  skipBlanks
  let name ← Scan.run1 isNameChar
  skipLines
  let words ←
    if (← nextReserved) = some "in" then
      Scan.word "in".toList
      some <$> Scan.bounded fun bound => listWords bound []
    else pure none
  skipBlanks
  if (← Scan.peek?) = some ';' then Scan.word [';']
  keyword "do"
  let body ← innerList read
  keyword "done"
  return .each (String.ofList name) words body

/-- A choice by the patterns that a word may match. -/
def caseForm : Scan Script := do
  Scan.word "case".toList
  skipBlanks
  let subject ← word
  keyword "in"
  read (.clauses subject)

/-- The clauses of a choice. -/
def clausesForm (subject : Word) : Scan Script := do
  skipLines
  if (← nextReserved) = some "esac" then
    Scan.word "esac".toList
    return .skip
  else
    if (← Scan.peek?) = some '(' then Scan.word ['(']
    let patterns ← Scan.bounded fun bound => choicePatterns bound []
    let body ← innerList read
    skipLines
    if ← comesNext ";;" then Scan.word [';', ';']
    let rest ← read (.clauses subject)
    return .choice subject patterns body rest

/-- A condition, what is done if it holds, and what is done otherwise. -/
def branchForm : Scan Script := do
  let condition ← innerList read
  keyword "then"
  let yes ← innerList read
  skipLines
  match ← nextReserved with
  | some "elif" =>
    Scan.word "elif".toList
    return .branch condition yes (← read .branchBody)
  | some "else" =>
    Scan.word "else".toList
    let no ← innerList read
    keyword "fi"
    return .branch condition yes no
  | _ =>
    keyword "fi"
    return .branch condition yes .skip

/-- The redirections behind a form. -/
def redirectedForm (form : Scan Script) : Scan Script := do
  let body ← form
  match ← Scan.bounded fun bound => redirects bound [] with
  | [] => return body
  | found => return .redirected body found

/-- A command that no reserved word opens: a function, or a simple command. -/
def plainForm : Scan Script := do
  match ← functionName? with
  | some name =>
    skipLines
    return .define name (← read .command)
  | none => simple lines

/-- One command. -/
def commandForm : Scan Script := do
  skipBlanks
  if (← Scan.peek?) = some '(' then redirectedForm (subshellForm read)
  else
    match ← nextReserved with
    | some "\x7b" => redirectedForm (groupForm read)
    | some "if" =>
      Scan.word "if".toList
      redirectedForm (read .branchBody)
    | some "while" => redirectedForm (loopForm read "while" false)
    | some "until" => redirectedForm (loopForm read "until" true)
    | some "for" => redirectedForm (eachForm read)
    | some "case" => redirectedForm (caseForm read)
    | some w =>
      Scan.check (w ∉ closers)
      simple lines
    | none => plainForm lines read

end Forms

/-- Reads a part of a script. -/
def part (lines : LineCount) : Nat → Reader
  | 0, _ => failure
  | bound + 1, goal =>
    let read := part lines bound
    match goal with
    | .list before => listForm read before
    | .joined => do read (.joinedAfter (← read .row))
    | .joinedAfter before => joinedForm read before
    | .row => rowForm read
    | .command => commandForm lines read
    | .branchBody => branchForm read
    | .clauses subject => clausesForm read subject

/-- The script of a text, if it is one. -/
def parse? (text : String) : Option Script :=
  let s := text.toList
  Scan.whole (do
    let script ← Scan.bounded fun bound =>
      part (s.count '\n') (3 * bound + 10) (.list .skip)
    skipLines
    return script) s

end SongPreview.Shell
