import SongPreview.Bytes
import SongPreview.Machine.Fault
import SongPreview.Path

/-!
# File trees

The files of a machine stand in a tree whose places are named by the way from the
root. A path is followed step by step: every step but the last needs a directory to
start from, and a link sends the way on to its target. A bound on the links makes
every walk end.
-/

namespace SongPreview

/-- A place in the file tree: the names on the way to it, the innermost first. -/
abbrev Location := List String

/-- The path of a place. -/
def Location.path (place : Location) : Path :=
  ⟨if place = [] then "/" else String.join (place.reverse.map ("/" ++ ·))⟩

/-- A file that only passes bytes on. -/
inductive Device where
  /-- Takes everything and holds nothing. -/
  | null
  /-- Takes everything and holds zeros without an end. -/
  | zero
  deriving DecidableEq, Repr

/-- What stands at a place. -/
inductive Entry where
  | directory
  | file (content : ByteArray) (executable : Bool)
  | link (target : Path)
  | device (device : Device)
  /-- A program of the system, by its name. -/
  | tool (name : String)
  deriving DecidableEq

/-- The files of a machine. The root is always a directory. -/
structure Tree where
  entries : List (Location × Entry)

namespace Tree

/-- What stands at a place. -/
def get? (t : Tree) (place : Location) : Option Entry :=
  if place = [] then some .directory else t.entries.lookup place

/-- The tree with something else at a place. -/
def put (t : Tree) (place : Location) (entry : Entry) : Tree :=
  ⟨(place, entry) :: t.entries.filter fun e => e.1 ≠ place⟩

/-- The tree with nothing at a place. -/
def erase (t : Tree) (place : Location) : Tree :=
  ⟨t.entries.filter fun e => e.1 ≠ place⟩

/-- The places under a place, at any depth. -/
def below (t : Tree) (place : Location) : List (Location × Entry) :=
  t.entries.filter fun e => place <:+ e.1 ∧ e.1 ≠ place

/-- The tree with a place and everything under it taken away. -/
def prune (t : Tree) (place : Location) : Tree :=
  ⟨t.entries.filter fun e => ¬ place <:+ e.1⟩

/-- A step of the way that a path describes. -/
inductive Step where
  | stay
  | up
  | name (name : String)
  deriving DecidableEq, Repr

/-- The step of a text between two slashes. -/
def Step.ofPiece (piece : List Char) : Step :=
  if piece = [] ∨ piece = ['.'] then .stay
  else if piece = ['.', '.'] then .up
  else .name (String.ofList piece)

/-- The way that a path describes. -/
def Step.ofPath (p : Path) : List Step :=
  (Path.splitSlash p.text.toList).map Step.ofPiece

/-- The longest name, in bytes. -/
def nameLimit : Nat := 255

/-- The longest path, in bytes. -/
def pathLimit : Nat := 4095

/-- The most links on one way. -/
def linkLimit : Nat := 40

/-- Where a way leads from a place, up to the first link on it that is followed: `jump` goes on
from there, with the target of the link in front of the steps that are left. The last step may
lead to a place where nothing stands. A link is followed, unless it is the last thing on the way
and `follow` is off. -/
def walkTo (t : Tree) (follow : Bool) (jump : Location → List Step → Except Fault Location)
    (here : Location) : List Step → Except Fault Location
  | [] => .ok here
  | step :: rest =>
    if t.get? here ≠ some .directory then .error .notDirectory
    else
      match step with
      | .stay => walkTo t follow jump here rest
      | .up => walkTo t follow jump here.tail rest
      | .name name =>
        let place := name :: here
        if nameLimit < name.utf8ByteSize then .error .nameTooLong
        else
          match t.get? place with
          | none => if rest = [] then .ok place else .error .notFound
          | some (.link target) =>
            if rest = [] ∧ ¬ follow then .ok place
            else jump (if target.isAbsolute then [] else here) (Step.ofPath target ++ rest)
          | some _ => walkTo t follow jump place rest

/-- Where a way leads from a place, with at most `links` links on it. -/
def walk (t : Tree) (follow : Bool) : (links : Nat) → Location → List Step → Except Fault Location
  | 0 => walkTo t follow fun _ _ => .error .tooManyLinks
  | links + 1 => walkTo t follow (walk t follow links)

/-- The place that a path starts from. -/
def start (workDir : Location) (p : Path) : Location :=
  if p.isAbsolute then [] else workDir

/-- A path that can be used at all. -/
def check (p : Path) : Except Fault Unit :=
  if '\x00' ∈ p.text.toList then .error .nulInName
  else if p.text = "" then .error .notFound
  else if pathLimit < p.text.utf8ByteSize then .error .nameTooLong
  else .ok ()

/-- The place that a path names, with something there or not. -/
def locate (t : Tree) (workDir : Location) (p : Path) : Except Fault Location := do
  check p
  t.walk true linkLimit (start workDir p) (Step.ofPath p)

/-- The last step of a path: the directory it starts from, the step, and whether a
slash follows. -/
structure LastStep where
  directory : Location
  step : Step
  slash : Bool

/-- The last step of a path. -/
def lastStep (t : Tree) (workDir : Location) (p : Path) : Except Fault LastStep := do
  check p
  let bare := (p.text.toList.reverse.dropWhile (· = '/')).reverse
  let steps := Step.ofPath ⟨String.ofList bare⟩
  let directory ← t.walk true linkLimit (start workDir p) (steps.dropLast ++ [.stay])
  return ⟨directory, steps.getLast?.getD .stay, bare.length < p.text.length⟩

end Tree

end SongPreview
