import SongPreview.Shell.Bytes

/-!
# Regular expressions

An expression fits a part of a text. Of all parts the first one counts, and at its place
the one that is found by taking as much as possible at every repetition. Basic and
extended expressions differ only in which characters need a backslash to have a meaning.
-/

namespace SongPreview.Shell

/-- A set of characters: ranges, or all others. -/
structure CharSet where
  negated : Bool := false
  ranges : List (Char × Char)
  deriving DecidableEq, Repr

namespace CharSet

/-- Whether a character is in a set. -/
def holds (s : CharSet) (c : Char) : Bool :=
  (s.ranges.any fun r => r.1 ≤ c ∧ c ≤ r.2) != s.negated

/-- The ranges of a class of characters. -/
def named : String → List (Char × Char)
  | "digit" => [('0', '9')]
  | "lower" => [('a', 'z')]
  | "upper" => [('A', 'Z')]
  | "alpha" => [('a', 'z'), ('A', 'Z')]
  | "alnum" => [('a', 'z'), ('A', 'Z'), ('0', '9')]
  | "space" => [(' ', ' '), ('\t', '\x0d')]
  | "blank" => [(' ', ' '), ('\t', '\t')]
  | "punct" => [('!', '/'), (':', '@'), ('[', '\x60'), ('\x7b', '~')]
  | "xdigit" => [('0', '9'), ('a', 'f'), ('A', 'F')]
  | "cntrl" => [('\x00', '\x1f'), ('\x7f', '\x7f')]
  | "print" => [(' ', '~')]
  | "graph" => [('!', '~')]
  | _ => []

/-- The characters of words. -/
def wordRanges : List (Char × Char) := [('a', 'z'), ('A', 'Z'), ('0', '9'), ('_', '_')]

/-- The name of a class that is spelled `[:name:]`, and what follows it. -/
def className? (s : List Char) : Option (String × List Char) :=
  match s with
  | '[' :: ':' :: rest =>
    let name := rest.takeWhile Char.isAlpha
    match rest.drop name.length with
    | ':' :: ']' :: rest => some (String.ofList name, rest)
    | _ => none
  | _ => none

/-- Reads the inside of brackets. -/
def read : Nat → Bool → List (Char × Char) → List Char → Option (List (Char × Char) × List Char)
  | 0, _, _, _ | _, _, _, [] => none
  | bound + 1, first, out, s@(c :: rest) =>
    match className? s with
    | some (name, rest) => read bound false (named name ++ out) rest
    | none =>
      if c = ']' ∧ ¬ first then some (out, rest)
      else
        match rest with
        | '-' :: d :: after =>
          if d = ']' then read bound false ((c, c) :: out) rest
          else read bound false ((c, d) :: out) after
        | _ =>
          if c = '\\' ∧ rest.head? = some 'n' then
            read bound false (('\n', '\n') :: out) (rest.drop 1)
          else if c = '\\' ∧ rest.head? = some 't' then
            read bound false (('\t', '\t') :: out) (rest.drop 1)
          else read bound false ((c, c) :: out) rest

/-- The set in brackets, behind the opening one. -/
def ofText? (s : List Char) : Option (CharSet × List Char) :=
  let (negated, inside) :=
    match s with
    | '^' :: inside => (true, inside)
    | _ => (false, s)
  (read (s.length + 1) true [] inside).map fun (ranges, rest) => (⟨negated, ranges⟩, rest)

end CharSet

/-- A regular expression. -/
inductive Regex where
  | empty
  | char (set : CharSet)
  | lineStart
  | lineEnd
  | group (number : Nat) (inside : Regex)
  /-- The same text as a group. -/
  | again (number : Nat)
  | both (first second : Regex)
  | either (first second : Regex)
  | repeated (least : Nat) (most : Option Nat) (inside : Regex)
  deriving Repr

namespace Regex

/-- Where a search stands: the characters before, the characters that follow, and the
places of the groups. -/
structure Place where
  before : Nat
  rest : List Char
  groups : List (Nat × Nat × Nat) := []

/-- The text of a group in the whole text. -/
def Place.group? (p : Place) (text : List Char) (number : Nat) : Option (List Char) :=
  (p.groups.lookup number).map fun (first, last) => (text.drop first).take (last - first)

/-- Follows an expression from a place, and then goes on. The first number bounds the
depth. -/
def follow (text : List Char) :
    Nat → Regex → Place → (Place → Option Place) → Option Place
  | 0, _, _, _ => none
  | bound + 1, r, p, next =>
    match r with
    | .empty => next p
    | .char set =>
      match p.rest with
      | c :: rest => if set.holds c then next { p with before := p.before + 1, rest } else none
      | [] => none
    | .lineStart => if p.before = 0 then next p else none
    | .lineEnd => if p.rest = [] then next p else none
    | .group number inside =>
      follow text bound inside p fun q =>
        next { q with groups := (number, p.before, q.before) :: q.groups }
    | .again number =>
      match p.group? text number with
      | none => none
      | some found =>
        if found.isPrefixOf p.rest then
          next { p with before := p.before + found.length, rest := p.rest.drop found.length }
        else none
    | .both first second => follow text bound first p fun q => follow text bound second q next
    | .either first second =>
      (follow text bound first p next).or (follow text bound second p next)
    | .repeated least most inside =>
      let more : Option Place :=
        if most = some 0 then none
        else
          follow text bound inside p fun q =>
            if q.before = p.before ∧ least = 0 then none
            else follow text bound (.repeated (least - 1) (most.map (· - 1)) inside) q next
      if least = 0 then more.or (next p) else more

/-- The first part of a text that fits, from a place on: where it begins, and the place
behind it. -/
def search (r : Regex) (text : List Char) : Nat → Nat → List Char → Option (Nat × Place)
  | 0, _, _ => none
  | bound + 1, before, rest =>
    match follow text (1000 + 8 * text.length) r ⟨before, rest, []⟩ some with
    | some place => some (before, place)
    | none =>
      match rest with
      | [] => none
      | _ :: rest => search r text bound (before + 1) rest

/-- What is read: alternatives, a row of parts, a part, or what is said behind one. -/
inductive Goal where
  | alternatives
  | row (before : Regex) (first : Bool)
  | behind (part : Regex)

/-- A text that is still to be read, with the number of groups so far. -/
abbrev Source := Nat × List Char

/-- Whether a text begins with an operator, which has a backslash in a basic
expression. -/
def operator? (extended : Bool) (c : Char) (s : List Char) : Option (List Char) :=
  match extended, s with
  | true, d :: rest => if d = c then some rest else none
  | false, '\\' :: d :: rest => if d = c then some rest else none
  | _, _ => none

/-- The bounds of a repetition in braces, up to the closing one. -/
def bounds? (extended : Bool) (s : List Char) : Option (Nat × Option Nat × List Char) :=
  let number (s : List Char) : Option Nat := decimal? (String.ofList (s.takeWhile Char.isDigit))
  let after := s.dropWhile Char.isDigit
  match after with
  | ',' :: rest =>
    (operator? extended '\x7d' (rest.dropWhile Char.isDigit)).map fun behind =>
      ((number s).getD 0, number rest, behind)
  | _ =>
    (number s).bind fun n =>
      (operator? extended '\x7d' after).map fun behind => (n, some n, behind)

/-- A single character as an expression. -/
def just (c : Char) : Regex := .char ⟨false, [(c, c)]⟩

/-- What a character stands for behind a backslash. -/
def escaped (c : Char) : Regex :=
  match c with
  | 'n' => just '\n'
  | 't' => just '\t'
  | 'w' => .char ⟨false, CharSet.wordRanges⟩
  | 'W' => .char ⟨true, CharSet.wordRanges⟩
  | 's' => .char ⟨false, CharSet.named "space"⟩
  | 'S' => .char ⟨true, CharSet.named "space"⟩
  | _ => if '1' ≤ c ∧ c ≤ '9' then .again (c.toNat - '0'.toNat) else just c

/-- Reads parts of an expression: the forms below read with it what stands inside them. -/
abbrev Reader := Goal → Source → Option (Regex × Source)

section Forms

variable (extended : Bool) (read : Reader)

/-- Whether a row ends here. -/
def rowEnds (s : List Char) : Bool :=
  s = [] || (operator? extended '|' s).isSome || (operator? extended ')' s).isSome

/-- A row, and the alternatives to it. -/
def alternativesForm (source : Source) : Option (Regex × Source) := do
  let (first, groups, s) ← read (.row .empty true) source
  match operator? extended '|' s with
  | none => return (first, groups, s)
  | some rest =>
    let (second, source) ← read .alternatives (groups, rest)
    return (.either first second, source)

/-- A row goes on with a part and with what is said behind it. -/
def rowWith (before part : Regex) (source : Source) : Option (Regex × Source) := do
  let (part, source) ← read (.behind part) source
  read (.row (.both before part) false) source

/-- A row goes on with a part that is no group. -/
def partForm (before : Regex) (first : Bool) (groups : Nat) :
    List Char → Option (Regex × Source)
  | [] => none
  | '[' :: rest => do
    let (set, rest) ← CharSet.ofText? rest
    rowWith read before (.char set) (groups, rest)
  | '.' :: rest => rowWith read before (.char ⟨true, []⟩) (groups, rest)
  | '^' :: rest =>
    if first ∨ extended then read (.row (.both before .lineStart) true) (groups, rest)
    else rowWith read before (just '^') (groups, rest)
  | '$' :: rest =>
    if extended ∨ rowEnds extended rest then
      read (.row (.both before .lineEnd) false) (groups, rest)
    else rowWith read before (just '$') (groups, rest)
  | '*' :: rest => if first then rowWith read before (just '*') (groups, rest) else none
  | '\\' :: c :: rest => rowWith read before (escaped c) (groups, rest)
  | c :: rest => rowWith read before (just c) (groups, rest)

/-- A row from some part of it on. -/
def rowForm (before : Regex) (first : Bool) : Source → Option (Regex × Source)
  | (groups, s) =>
    if rowEnds extended s then some (before, groups, s)
    else
      match operator? extended '(' s with
      | some rest => do
        let (inside, inner, rest) ← read .alternatives (groups + 1, rest)
        rowWith read before (.group (groups + 1) inside) (inner, ← operator? extended ')' rest)
      | none => partForm extended read before first groups s

/-- How often a part is repeated, as is said behind it. -/
def behindForm (part : Regex) : Source → Option (Regex × Source)
  | (groups, s) =>
    let again (least : Nat) (most : Option Nat) (rest : List Char) :=
      read (.behind (.repeated least most part)) (groups, rest)
    match s with
    | '*' :: rest => again 0 none rest
    | _ =>
      match operator? extended '+' s, operator? extended '?' s, operator? extended '\x7b' s with
      | some rest, _, _ => again 1 none rest
      | _, some rest, _ => again 0 (some 1) rest
      | _, _, some rest => do
        let (least, most, rest) ← bounds? extended rest
        again least most rest
      | _, _, _ => some (part, groups, s)

end Forms

/-- Reads a part of an expression. -/
def read (extended : Bool) : Nat → Reader
  | 0, _, _ => none
  | bound + 1, goal, source =>
    let inner := read extended bound
    match goal with
    | .alternatives => alternativesForm extended inner source
    | .row before first => rowForm extended inner before first source
    | .behind part => behindForm extended inner part source

/-- The expression of a text. -/
def parse? (extended : Bool) (s : List Char) : Option Regex :=
  match read extended (4 * s.length + 8) .alternatives (0, s) with
  | some (r, _, []) => some r
  | _ => none

end Regex

end SongPreview.Shell
