import SongPreview.Machine
import SongPreview.Shell.Bytes
import SongPreview.Shell.Pattern

/-!
# Fields

A word becomes any number of fields. What came out of a variable or of a script is taken
apart at the separators; what is quoted stays together. A field that is a pattern becomes
the names of the files that fit it.
-/

namespace SongPreview.Shell

/-- A part of a word after everything in it was looked up. -/
inductive Part where
  | text (s : String) (quoted : Bool)
  /-- A text that is taken apart at the separators. -/
  | value (s : String)
  /-- Texts of which each begins a new field but the first. -/
  | values (texts : List String) (quoted : Bool)
  deriving DecidableEq, Repr

/-- A field in the making: its characters, and which of them are quoted. -/
abbrev Field := List (Char × Bool)

/-- The text of a field. -/
def Field.text (f : Field) : String :=
  String.ofList (f.map Prod.fst)

/-- Fields in the making: the finished ones, the latest first, and the characters of the
one that is open, the latest first. -/
structure Fields where
  done : List Field := []
  current : Option Field := none

namespace Fields

/-- Ends the open field, if there is one. -/
def cut (f : Fields) : Fields :=
  match f.current with
  | none => f
  | some field => ⟨field.reverse :: f.done, none⟩

/-- Opens a field, unless one is open. -/
def opened (f : Fields) : Fields :=
  { f with current := some (f.current.getD []) }

/-- Puts a character at the end. -/
def push (quoted : Bool) (f : Fields) (c : Char) : Fields :=
  { f with current := some ((c, quoted) :: f.current.getD []) }

/-- Puts a text at the end. -/
def add (quoted : Bool) (f : Fields) (s : String) : Fields :=
  let f := s.foldl (push quoted) f
  if quoted then f.opened else f

/-- Whether a separator is a blank. -/
def isSpace (c : Char) : Bool := c == ' ' || c == '\t' || c == '\n'

/-- Puts a text at the end and takes it apart at the separators. Blanks beside another
separator do not count. -/
def split (separators : List Char) (f : Fields) (s : String) : Fields :=
  (s.foldl (fun (acc : Fields × Bool) c =>
    let (f, spaced) := acc
    if c ∉ separators then (f.push false c, false)
    else if isSpace c then (f.cut, spaced || f.current.isSome)
    else if f.current.isSome then (f.cut, false)
    else if spaced then (f, false)
    else (f.opened.cut, false)) (f, false)).1

/-- Puts a part at the end. -/
def put (separators : List Char) (f : Fields) : Part → Fields
  | .text s quoted => f.add quoted s
  | .value s => f.split separators s
  | .values [] _ => f
  | .values (first :: rest) quoted =>
    let one (f : Fields) (s : String) := if quoted then f.add true s else f.split separators s
    rest.foldl (fun f s => one f.cut s) (one f first)

/-- The fields of some parts. -/
def ofParts (separators : List Char) (parts : List Part) : List Field :=
  (parts.foldl (put separators) {}).cut.done.reverse

end Fields

/-- The characters of some parts as one field. -/
def Field.ofParts (parts : List Part) : Field :=
  parts.flatMap fun
    | .text s quoted => s.toList.map fun c => (c, quoted)
    | .value s => s.toList.map fun c => (c, false)
    | .values texts quoted => (" ".intercalate texts).toList.map fun c => (c, quoted)

/-- The names in a directory, in order. -/
def namesIn (m : Machine) (dir : Location) : List String :=
  (m.tree.entries.filterMap fun e =>
    match e.1 with
    | name :: above => if above = dir then some name else none
    | [] => none).mergeSort fun a b => a < b || a == b

/-- The pieces of a field between slashes. -/
def slashPieces (current : Field) : Field → List Field
  | [] => [current.reverse]
  | (c, quoted) :: rest =>
    if c = '/' then current.reverse :: slashPieces [] rest
    else slashPieces ((c, quoted) :: current) rest

/-- The paths that fit the pieces of a pattern, behind a path that was found. -/
def matching (m : Machine) (found : String) : List Field → List String
  | [] => [found]
  | piece :: rest =>
    let more (name : String) :=
      let path := found ++ name
      if rest = [] then [path]
      else matching m (path ++ "/") rest
    if !Glob.isOpen (Glob.parse piece) then
      let path := found ++ piece.text
      if rest = [] then (if path = found ∨ m.exists? ⟨cooked path⟩ then [path] else [])
      else more piece.text
    else
      match m.find ⟨if found = "" then "." else cooked found⟩ with
      | .ok (place, .directory) =>
        let hidden := (piece.head?.map Prod.fst) = some '.'
        ((namesIn m place).filter fun name =>
          (hidden || !name.startsWith ".") && Glob.fit (Glob.parse piece) (raw name)).flatMap
            fun name => more (raw name)
      | _ => []

/-- The texts that a field stands for. -/
def Field.texts (m : Machine) (f : Field) : List String :=
  if !Glob.isOpen (Glob.parse f) then [f.text]
  else
    match matching m "" (slashPieces [] f) with
    | [] => [f.text]
    | found => found

end SongPreview.Shell
