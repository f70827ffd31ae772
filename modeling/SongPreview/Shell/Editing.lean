import SongPreview.Shell.Regex

/-!
# Editing lines

An editing script is a list of commands that every line of a text goes through. A
command may be meant for some lines only; most often it puts something else in the place
of what fits an expression.
-/

namespace SongPreview.Shell.Editing

/-- A line that a command is meant for. -/
inductive Address where
  | line (n : Nat)
  | last
  | fits (r : Regex)

/-- A piece of what is put in the place of a part. -/
inductive Substitute where
  | text (s : List Char)
  /-- A group, or the whole part for zero. -/
  | group (number : Nat)
  deriving DecidableEq, Repr

/-- What is done with a line. -/
inductive Deed where
  | substitute (r : Regex) (by_ : List Substitute) (all printed : Bool) (first : Nat)
  | translate (from_ to_ : List Char)
  | print
  | printNumber
  | delete
  | quit (printed : Bool) (code : Nat)
  | behind (text : String)
  | before (text : String)
  | instead (text : String)

/-- A command: which lines it is meant for, and what it does with them. -/
structure Command where
  first : Option Address := none
  last : Option Address := none
  negated : Bool := false
  deed : Deed

/-! ## Reading scripts -/

/-- The text up to an end that has no backslash before it. A backslash before the end
itself is dropped. -/
def upTo (stop : Char) (out : List Char) : List Char → Option (List Char × List Char)
  | [] => none
  | '\\' :: c :: rest =>
    if c = stop then upTo stop (c :: out) rest else upTo stop (c :: '\\' :: out) rest
  | c :: rest => if c = stop then some (out.reverse, rest) else upTo stop (c :: out) rest

/-- The pieces of what is put in the place of a part, held in reverse. -/
def substitutes (out : List Substitute) : List Char → List Substitute
  | [] => out.reverse
  | '&' :: rest => substitutes (.group 0 :: out) rest
  | '\\' :: c :: rest =>
    if c.isDigit then substitutes (.group (c.toNat - '0'.toNat) :: out) rest
    else substitutes (.text [if c = 'n' then '\n' else if c = 't' then '\t' else c] :: out) rest
  | c :: rest => substitutes (.text [c] :: out) rest

/-- A text without blanks at its front. -/
def unblanked (s : List Char) : List Char := s.dropWhile fun c => c == ' ' || c == '\t'

/-- An address, if one comes next. -/
def address (extended : Bool) (s : List Char) : Option (Option Address × List Char) :=
  match s with
  | '$' :: rest => some (some .last, rest)
  | '/' :: rest => do
    let (text, rest) ← upTo '/' [] rest
    return (some (.fits (← Regex.parse? extended text)), rest)
  | c :: _ =>
    if c.isDigit then
      (decimal? (String.ofList (s.takeWhile Char.isDigit))).map fun n =>
        (some (.line n), s.dropWhile Char.isDigit)
    else some (none, s)
  | [] => some (none, s)

/-- The text of a command up to the end of its line. -/
def restOfLine (s : List Char) : String × List Char :=
  let s := unblanked s
  let s :=
    match s with
    | '\\' :: '\n' :: rest => rest
    | '\\' :: rest => rest
    | _ => s
  (String.ofList (s.takeWhile (· ≠ '\n')), s.dropWhile (· ≠ '\n'))

/-- What a command does. -/
def deed (extended : Bool) : List Char → Option (Deed × List Char)
  | 's' :: stop :: rest => do
    let (pattern, rest) ← upTo stop [] rest
    let (by_, rest) ← upTo stop [] rest
    let flags := rest.takeWhile Char.isAlphanum
    let number := (decimal? (String.ofList (flags.filter Char.isDigit))).getD 1
    if flags.all fun c => c.isDigit || c == 'g' || c == 'p' then
      return (.substitute (← Regex.parse? extended pattern) (substitutes [] by_) ('g' ∈ flags)
        ('p' ∈ flags) number, rest.drop flags.length)
    else none
  | 'y' :: stop :: rest => do
    let (from_, rest) ← upTo stop [] rest
    let (to_, rest) ← upTo stop [] rest
    if from_.length = to_.length then return (.translate from_ to_, rest) else none
  | 'p' :: rest => some (.print, rest)
  | '=' :: rest => some (.printNumber, rest)
  | 'd' :: rest => some (.delete, rest)
  | 'q' :: rest =>
    let rest := unblanked rest
    let code := (decimal? (String.ofList (rest.takeWhile Char.isDigit))).getD 0
    some (.quit true code, rest.dropWhile Char.isDigit)
  | 'Q' :: rest => some (.quit false 0, rest)
  | 'a' :: rest =>
    let (text, rest) := restOfLine rest
    some (.behind text, rest)
  | 'i' :: rest =>
    let (text, rest) := restOfLine rest
    some (.before text, rest)
  | 'c' :: rest =>
    let (text, rest) := restOfLine rest
    some (.instead text, rest)
  | _ => none

/-- The commands of a script, held in reverse. The first number bounds the script. -/
def commands (extended : Bool) : Nat → List Command → List Char → Option (List Command)
  | 0, _, _ => none
  | bound + 1, out, s =>
    match s.dropWhile fun c => c == ' ' || c == '\t' || c == ';' || c == '\n' with
    | [] => some out.reverse
    | '#' :: rest => commands extended bound out (rest.dropWhile (· ≠ '\n'))
    | s => do
      let (first, rest) ← address extended s
      let (last, rest) ←
        match unblanked rest with
        | ',' :: rest => address extended (unblanked rest)
        | _ => some (none, rest)
      let (negated, rest) :=
        match unblanked rest with
        | '!' :: rest => (true, unblanked rest)
        | rest => (false, rest)
      let (deed, rest) ← deed extended rest
      match unblanked rest with
      | [] => return (⟨first, last, negated, deed⟩ :: out).reverse
      | c :: _ =>
        if c = ';' ∨ c = '\n' ∨ c = '\x7d' then
          commands extended bound (⟨first, last, negated, deed⟩ :: out) (unblanked rest)
        else none

/-- The commands of a script. -/
def parse? (extended : Bool) (s : String) : Option (List Command) :=
  commands extended (s.length + 1) [] s.toList

/-! ## Carrying commands out -/

/-- A line on its way through the commands. -/
structure Line where
  text : List Char
  number : Nat
  isLast : Bool
  /-- What was printed on the way, the latest first. -/
  out : List String := []
  /-- What is printed behind the line, the latest first. -/
  after : List String := []
  deleted : Bool := false
  /-- Whether the work ends here: whether the line is printed, and the status. -/
  stop : Option (Bool × Nat) := none

/-- Whether an address is that of a line. -/
def Address.holds (l : Line) : Address → Bool
  | line n => l.number = n
  | last => l.isLast
  | fits r => (r.search l.text (l.text.length + 1) 0 l.text).isSome

/-- Whether a command is meant for a line, and whether its range goes on behind it. -/
def Command.meant (c : Command) (active : Bool) (l : Line) : Bool × Bool :=
  let (holds, active) :=
    match c.first, c.last with
    | none, _ => (true, false)
    | some first, none => (first.holds l, false)
    | some first, some final =>
      if active then
        match final with
        | .line n => (l.number ≤ n, l.number < n)
        | _ => (true, !final.holds l)
      else if first.holds l then
        match final with
        | .line n => (true, l.number < n)
        | _ => (true, !l.isLast)
      else (false, false)
  (holds != c.negated, active)

/-- What is put in the place of a part. -/
def filled (text : List Char) (start : Nat) (place : Regex.Place) (by_ : List Substitute) :
    List Char :=
  by_.flatMap fun
    | .text s => s
    | .group 0 => (text.drop start).take (place.before - start)
    | .group n => (place.group? text n).getD []

/-- Puts something else in the place of the parts that fit, from the one of a number on.
The text so far is held in reverse. -/
def replaceFrom (r : Regex) (by_ : List Substitute) (all : Bool) (text : List Char) :
    Nat → Nat → Bool → List Char → Nat → List Char → List Char × Bool
  | 0, _, done, out, _, rest => (rest.reverse ++ out, done)
  | bound + 1, skip, done, out, before, rest =>
    match r.search text (rest.length + 1) before rest with
    | none => (rest.reverse ++ out, done)
    | some (start, place) =>
      let out := (rest.take (start - before)).reverse ++ out
      let part := rest.drop (start - before) |>.take (place.before - start)
      let put := skip ≤ 1
      let out := (if put then filled text start place by_ else part).reverse ++ out
      if put ∧ ¬ all then (place.rest.reverse ++ out, true)
      else if place.before = start then
        match place.rest with
        | [] => (out, done || put)
        | c :: rest =>
          replaceFrom r by_ all text bound (skip - 1) (done || put) (c :: out) (start + 1) rest
      else replaceFrom r by_ all text bound (skip - 1) (done || put) out place.before place.rest

/-- A line with its break. -/
def shown (text : List Char) : String := String.ofList text ++ "\n"

/-- Does something with a line. -/
def Deed.apply (l : Line) : Deed → Line
  | substitute r by_ all printed first =>
    let (text, done) :=
      replaceFrom r by_ all l.text (l.text.length + 2) first false [] 0 l.text
    let text := text.reverse
    { l with text, out := if done ∧ printed then shown text :: l.out else l.out }
  | translate from_ to_ =>
    { l with text := l.text.map fun c => ((from_.zip to_).lookup c).getD c }
  | print => { l with out := shown l.text :: l.out }
  | printNumber => { l with out := (toString l.number ++ "\n") :: l.out }
  | delete => { l with deleted := true }
  | quit printed code => { l with stop := some (printed, code) }
  | behind text => { l with after := (text ++ "\n") :: l.after }
  | before text => { l with out := (text ++ "\n") :: l.out }
  | instead text => { l with out := (text ++ "\n") :: l.out, deleted := true }

/-- Carries commands out on a line. The flags tell which ranges go on. -/
def through : List Command → List Bool → Line → List Bool × Line
  | c :: rest, active :: flags, l =>
    if l.deleted ∨ l.stop.isSome then (active :: flags, l)
    else
      let (holds, active) := c.meant active l
      let (flags, l) := through rest flags (if holds then c.deed.apply l else l)
      (active :: flags, l)
  | _, flags, l => (flags, l)

/-- The text after the commands, piece by piece in reverse, and the status. A line break
is missing at the end if it was. -/
def lines (cs : List Command) (quiet : Bool) (flags : List Bool) (number : Nat)
    (out : List String) : List String → List String × Nat
  | [] => (out, 0)
  | line :: rest =>
    let complete := line.endsWith "\n"
    let text := line.toList
    let text := if complete then text.dropLast else text
    let (flags, l) := through cs flags ⟨text, number, rest.isEmpty, [], [], false, none⟩
    let whole := !quiet && !l.deleted && l.stop.all Prod.fst
    let printed := if whole then [if complete then shown l.text else String.ofList l.text] else []
    let out := l.after ++ printed ++ l.out ++ out
    match l.stop with
    | some (_, code) => (out, code)
    | none => lines cs quiet flags (number + 1) out rest

/-- The text after the commands, and the status. -/
def edit (cs : List Command) (quiet : Bool) (text : String) : String × Nat :=
  let (out, code) := lines cs quiet (cs.map fun _ => false) 1 [] (linesOf text)
  (String.join out.reverse, code)

end SongPreview.Shell.Editing
