/-!
# Paths

A path is a text whose names are separated by slashes. Reading it as a list of
components skips empty names and single dots; two spellings with the same
components name the same path. The operations below cut and extend the text
itself, so a path is printed the way it was written.
-/

namespace SongPreview

/-- A path in its written form. -/
structure Path where
  text : String
  deriving DecidableEq, Repr, Inhabited

namespace Path

/-- What one step of a path says. -/
inductive Component where
  /-- The slash at the front of an absolute path. -/
  | root
  /-- The dot at the front of a relative path. -/
  | current
  /-- Two dots. -/
  | up
  | name (name : String)
  deriving DecidableEq, Repr

/-- A path that starts at the root. -/
def isAbsolute (p : Path) : Bool :=
  p.text.toList.head? == some '/'

/-- The texts between the slashes, the empty ones included. -/
def splitSlash : List Char → List (List Char)
  | [] => [[]]
  | c :: cs =>
    if c = '/' then [] :: splitSlash cs
    else
      match splitSlash cs with
      | [] => [[c]]
      | piece :: rest => (c :: piece) :: rest

/-- Every piece with the number of characters up to its end. -/
def withEnds (start : Nat) : List (List Char) → List (List Char × Nat)
  | [] => []
  | piece :: rest =>
    (piece, start + piece.length) :: withEnds (start + piece.length + 1) rest

/-- A piece that is neither empty nor a single dot. -/
def Component.ofPiece? (piece : List Char) : Option Component :=
  if piece = [] ∨ piece = ['.'] then none
  else if piece = ['.', '.'] then some .up
  else some (.name (String.ofList piece))

/-- The components, each with the number of characters up to its end. -/
def spans (p : Path) : List (Component × Nat) :=
  match splitSlash p.text.toList with
  | [] => []
  | first :: rest =>
    let front : List (Component × Nat) :=
      if first = [] then (if rest = [] then [] else [(.root, 1)])
      else if first = ['.'] then [(.current, 1)]
      else (Component.ofPiece? first).toList.map fun c => (c, first.length)
    front ++ (withEnds (first.length + 1) rest).filterMap fun (piece, stop) =>
      (Component.ofPiece? piece).map fun c => (c, stop)

/-- What the path says, step by step. -/
def components (p : Path) : List Component :=
  p.spans.map Prod.fst

/-- Whether two spellings name the same path. -/
def same (p q : Path) : Bool :=
  p.components == q.components

/-- The path up to a number of characters. -/
def take (p : Path) (n : Nat) : Path :=
  ⟨String.ofList (p.text.toList.take n)⟩

/-- The path without its last component, without its last two, and so on: to the root
if the path starts there, and to the empty path otherwise. -/
def parents (p : Path) : List Path :=
  match p.spans with
  | [] => []
  | spans@((first, _) :: _) =>
    (spans.dropLast.reverse.map fun span => p.take span.2) ++
      if first = .root then [] else [⟨""⟩]

/-- The path without its last component. The root and the empty path have no
parent; the parent of a single name is the empty path. -/
def parent? (p : Path) : Option Path :=
  p.parents.head?

/-- The last component, if it is a name. -/
def fileName? (p : Path) : Option String :=
  match p.spans.getLast? with
  | some (.name name, _) => some name
  | _ => none

/-- A file name cut at its last dot. A dot at the front does not count. -/
def splitName (name : String) : String × Option String :=
  let reversed := name.toList.reverse
  match reversed.dropWhile (· ≠ '.') with
  | [] => (name, none)
  | _ :: stem =>
    if stem = [] then (name, none)
    else (String.ofList stem.reverse, some (String.ofList (reversed.takeWhile (· ≠ '.')).reverse))

/-- What follows the last dot of the file name. -/
def extension? (p : Path) : Option String :=
  p.fileName?.bind fun name => (splitName name).2

/-- The path with another extension. A path without a file name stays as it is. The
extension is taken off first: where that leaves two dots at the end, no file is named
any more and nothing is added. -/
def withExtension (p : Path) (extension : String) : Path :=
  match p.spans.getLast? with
  | some (.name name, stop) =>
    let (stem, old) := splitName name
    let bare := p.take (stop - (old.getD "").length)
    if stop = p.text.length ∧ bare.fileName?.isNone then bare
    else ⟨(p.take (stop - name.length)).text ++ stem ++ "." ++ extension⟩
  | _ => p

/-- A path read from inside a directory. An absolute path stands for itself. -/
def join (base p : Path) : Path :=
  if p.isAbsolute then p
  else if base.text = "" ∨ base.text.toList.getLast? = some '/' then ⟨base.text ++ p.text⟩
  else ⟨base.text ++ "/" ++ p.text⟩

/-- A path whose tilde, alone or in front of a slash, is the home directory. -/
def expandHome (home p : Path) : Path :=
  match p.text.toList with
  | '~' :: rest =>
    if rest = [] ∨ rest.head? = some '/' then ⟨home.text ++ String.ofList rest⟩ else p
  | _ => p

/-- A path as a file in `base` writes it: with its tilde expanded, and read from
inside `base`. -/
def expand (home base p : Path) : Path :=
  base.join (expandHome home p)

/-- A path or a text in backquotes, as messages show it. -/
def quote (text : String) : String :=
  "`" ++ text ++ "`"

end Path

end SongPreview
