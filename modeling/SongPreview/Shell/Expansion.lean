import SongPreview.Shell.Arithmetic
import SongPreview.Shell.Fields
import SongPreview.Shell.Parsing
import SongPreview.Shell.Process

/-!
# Expansion

The pieces of a word are looked up: variables have values, expressions are worked out,
and scripts are worked through for their output. What they become is put together as
fields or as one text.
-/

namespace SongPreview.Shell

/-- How a part of a script is worked through. -/
structure Manner where
  /-- Nothing follows in the process. -/
  last : Bool := false
  /-- A failure is looked at by what follows. -/
  tested : Bool := false
  deriving DecidableEq, Repr

/-- What works through a script and tells its status. -/
abbrev Runner := Manner → Script → Work Nat

/-- Complains as a script does, with the line of the command. -/
def scriptComplaint (line : Nat) (text : String) : Work Unit := do
  complain ((← self).name ++ ": " ++ toString line ++ ": " ++ text ++ "\n")

/-- Gives a script up. -/
def giveUp {α : Type} (line : Nat) (text : String) : Work α := do
  scriptComplaint line text
  endWith 2

/-! ## Variables -/

/-- The value of a variable, if it is set. -/
def valueOf (name : String) : Work (Option String) := do
  let p ← self
  match name with
  | "#" => return some (toString p.arguments.length)
  | "?" => return some (toString p.status)
  | "$" => return some (toString p.scriptPid)
  | "!" => return if p.lastJob = 0 then none else some (toString p.lastJob)
  | "-" => return some (if p.strict then "e" else "")
  | "@" | "*" => return if p.arguments = [] then none else some (" ".intercalate p.arguments)
  | "0" => return some p.name
  | "PPID" => return some (toString p.parent)
  | _ =>
    match decimal? name with
    | some n => return p.arguments[n - 1]?
    | none => return (p.bindings.lookup name).map Variable.value

/-- Sets a variable. -/
def assign (name value : String) : Work Unit :=
  change fun p =>
    let exported := (p.bindings.lookup name).any Variable.exported
    { p with bindings :=
        (name, ⟨value, exported⟩) :: p.bindings.filter fun v => v.1 ≠ name }

/-- The characters that values are taken apart at. -/
def separators : Work (List Char) := do
  return ((← valueOf "IFS").getD " \t\n").toList

/-- The variables as an expression sees them. -/
def variableText (p : Process) (name : String) : String :=
  ((p.bindings.lookup name).map Variable.value).getD ""

/-- The value of an expression, with what it sets. -/
def arithmetic (line : Nat) (text : String) : Work String := do
  let p ← self
  match Expression.parse? text with
  | none => giveUp line (Expression.Stop.malformed.message text)
  | some e =>
    match e.value (variableText p) [] with
    | .error stop => giveUp line (stop.message text)
    | .ok (n, set) =>
      set.reverse.forM fun (name, n) => assign name (toString n)
      return toString n

/-! ## Patterns against values -/

/-- The longest or the shortest front of a text that fits, without which it is left. -/
def withoutFront (longest : Bool) (pattern : List Glob) (s : List Char) : List Char :=
  let cuts := List.range (s.length + 1)
  let cuts := if longest then cuts.reverse else cuts
  match cuts.find? fun n => Glob.fit pattern (String.ofList (s.take n)) with
  | some n => s.drop n
  | none => s

/-- The longest or the shortest end of a text that fits, without which it is left. -/
def withoutBack (longest : Bool) (pattern : List Glob) (s : List Char) : List Char :=
  let cuts := List.range (s.length + 1)
  let cuts := if longest then cuts else cuts.reverse
  match cuts.find? fun n => Glob.fit pattern (String.ofList (s.drop n)) with
  | some n => s.take n
  | none => s

/-! ## Output of scripts -/

/-- The output of a script, without the line breaks at its end. -/
def outputOf (run : Runner) (line : Nat) (text : String) : Work String := do
  match parse? text with
  | none => giveUp line "Syntax error: end of file unexpected"
  | some script =>
    let id ← newStream {}
    let child ← newProcess
    let child := { child with handles := (1, .stream id) :: child.handles.filter (·.1 ≠ 1) }
    let ending ← workThrough child (run { last := true } (.subshell script))
    let s ← stream id
    let status ← awaitCommand ending
    waitUntil s.closed
    change fun p => { p with status }
    let text := String.join (s.written.reverse.map Prod.snd)
    let text := text.toList.filter (· ≠ '\x00')
    return String.ofList (text.reverse.dropWhile (· = '\n')).reverse

/-! ## Words -/

/-- The part of a word that a value becomes. -/
def valuePart (quoted : Bool) (value : String) : Part :=
  if quoted then .text value true else .value value

/-- What the name of a variable alone stands for. Two names stand for all arguments. -/
def wholeValue (name : String) (quoted : Bool) : Work (List Part) := do
  if name = "@" then return [.values (← self).arguments quoted]
  else if name = "*" then
    if quoted then
      let joint := ((← separators).head?.map fun c => String.ofList [c]).getD ""
      return [.text (joint.intercalate (← self).arguments) true]
    else return [.values (← self).arguments false]
  else return [valuePart quoted ((← valueOf name).getD "")]

section Forms

variable (line : Nat) (read : List Piece → Work (List Part)) (name : String) (quoted : Bool)

/-- A variable with a word for the case that it is set, or that it is not. -/
def insteadForm (kind : Char) (empty : Bool) (word : String) : Work (List Part) := do
  let value ← valueOf name
  let missing := value.isNone || (empty && value = some "")
  if kind = '+' then
    if missing then return if quoted then [.text "" true] else []
    else read (wordOf word quoted)
  else if !missing then wholeValue name quoted
  else if kind = '-' then read (wordOf word quoted)
  else
    let text := (Field.ofParts (← read (wordOf word quoted))).text
    if kind = '=' then
      assign name text
      return [valuePart quoted text]
    else
      giveUp line (name ++ ": " ++
        if text ≠ "" then text else if empty then "parameter not set or null"
        else "parameter not set")

/-- A variable in one of the forms that it may have in a word. -/
def variableForm : Form → Work (List Part)
  | .value => wholeValue name quoted
  | .length => do
    let length ←
      if name = "@" ∨ name = "*" then pure (← self).arguments.length
      else pure ((← valueOf name).getD "").length
    return [valuePart quoted (toString length)]
  | .instead kind empty word => insteadForm line read name quoted kind empty word
  | .without atEnd longest pattern => do
    let s := ((← valueOf name).getD "").toList
    let pattern := Glob.parse (Field.ofParts (← read (wordOf pattern false)))
    let rest := if atEnd then withoutBack longest pattern s else withoutFront longest pattern s
    return [valuePart quoted (String.ofList rest)]

end Forms

/-- Looks up pieces. The number bounds how deep words stand in words. -/
def lookUp (run : Runner) (line : Nat) : Nat → List Piece → Work (List Part)
  | 0, _ => return []
  | bound + 1, pieces => do
    let read := lookUp run line bound
    let found ← pieces.mapM fun
      | .text s quoted => return [Part.text s quoted]
      | .output script quoted => return [valuePart quoted (← outputOf run line script)]
      | .number expression quoted => do
        let parts ← read (textPieces expression)
        return [valuePart quoted (← arithmetic line (Field.ofParts parts).text)]
      | .variable name form quoted => variableForm line read name quoted form
    return found.flatten

/-- A word whose tilde stands for the home directory. -/
def withHome (p : Process) (w : Word) : Word :=
  match w with
  | .text s false :: rest =>
    match s.toList with
    | ['~'] =>
      if rest = [] then [.text (variableText p "HOME") true] else w
    | '~' :: '/' :: path =>
      .text (variableText p "HOME") true :: .text (String.ofList ('/' :: path)) false :: rest
    | _ => w
  | _ => w

/-- The parts of a word. -/
def partsOf (run : Runner) (line : Nat) (w : Word) : Work (List Part) := do
  lookUp run line 20 (withHome (← self) w)

/-- A word as one field. -/
def fieldOf (run : Runner) (line : Nat) (w : Word) : Work Field := do
  return .ofParts (← partsOf run line w)

/-- A word as one text. -/
def textOf (run : Runner) (line : Nat) (w : Word) : Work String := do
  return (← fieldOf run line w).text

/-- The texts that a word stands for. -/
def textsOf (run : Runner) (line : Nat) (w : Word) : Work (List String) := do
  let fields := Fields.ofParts (← separators) (← partsOf run line w)
  let m ← machine
  return fields.flatMap (Field.texts m)

end SongPreview.Shell
