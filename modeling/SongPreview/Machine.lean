import SongPreview.Machine.Tree
import SongPreview.Utf8

/-!
# Machines

A machine is what the program works on: files, the directory it works in, and the
time. Reading leaves a machine as it is. Every basic change either is made as a whole
or leaves the machine as it was; a sequence of them may stop in between.
-/

namespace SongPreview

/-- A single change to the files. -/
inductive Change where
  | makeDir (place : Location)
  /-- A file is made, or opened to be written. -/
  | openFile (place : Location)
  | fill (place : Location)
  | move (source place : Location)
  deriving DecidableEq, Repr

/-- Files, and what a program finds around it. -/
structure Machine where
  tree : Tree
  /-- The directory that relative paths start from. -/
  workDir : Location
  /-- The home directory of the user. -/
  home : Path
  /-- The directory of temporary files. -/
  tempDir : Path
  /-- The directories that programs are looked for in. -/
  searchPath : List Path
  /-- The time, in seconds since the epoch. -/
  time : Int
  /-- How many bytes a file can hold at most, if there is a limit. -/
  sizeLimit : Option Nat := none
  /-- Which changes are refused for a reason beside the files, such as a missing permission. -/
  refuses : Change → Option Fault := fun _ => none

/-- A sequence of changes to a machine that may end with a fault. What was done before
the fault stays done. -/
abbrev Action := ExceptT Fault (StateM Machine)

namespace Machine

/-- The path of the directory that the program works in. -/
def workPath (m : Machine) : Path :=
  m.workDir.path

/-- Whether the directory that the program works in is still there. -/
def hasWorkDir (m : Machine) : Bool :=
  m.tree.get? m.workDir = some .directory

/-- What a path leads to. -/
def find (m : Machine) (p : Path) : Except Fault (Location × Entry) := do
  let place ← m.tree.locate m.workDir p
  match m.tree.get? place with
  | some entry => return (place, entry)
  | none => throw .notFound

/-- Whether a path leads to anything. -/
def exists? (m : Machine) (p : Path) : Bool :=
  (m.find p).isOk

/-- Whether a path leads to a directory. -/
def isDirectory (m : Machine) (p : Path) : Bool :=
  match m.find p with
  | .ok (_, .directory) => true
  | _ => false

/-- Whether a path leads to a file with content of its own. -/
def isFile (m : Machine) (p : Path) : Bool :=
  match m.find p with
  | .ok (_, .file ..) | .ok (_, .tool _) => true
  | _ => false

/-- The content of a file. -/
def read (m : Machine) (p : Path) : Except Fault ByteArray := do
  match ← m.find p with
  | (_, .file content _) => return content
  | (_, .directory) => throw .isDirectory
  | _ => return .empty

/-- The content of a file that holds text. -/
def readText (m : Machine) (p : Path) : Except Fault String := do
  match String.fromUTF8? (← m.read p) with
  | some text => return text
  | none => throw .illFormedText

/-- The only path of a file that goes through no link and no dots. -/
def canonical (m : Machine) (p : Path) : Except Fault Path := do
  return (← m.find p).1.path

/-- An absolute path for a file: the canonical one if the file is there. Without a
working directory a relative path to nothing stays as it is. -/
def normalize (m : Machine) (p : Path) : Path :=
  match m.canonical p with
  | .ok q => q
  | .error _ => if m.hasWorkDir then m.workPath.join p else p

/-- The nearest file of a name, in a directory or one that holds it. -/
def findUpward (m : Machine) (name start : Path) : Option Path :=
  if name.isAbsolute then (if m.exists? name then some name else none)
  else ((start :: start.parents).map fun dir => dir.join name).find? m.exists?

/-- The machine with other files. -/
def withTree (m : Machine) (tree : Tree) : Machine :=
  { m with tree }

/-- A change that is not refused. -/
def permit (m : Machine) (change : Change) : Except Fault Unit :=
  (m.refuses change).elim (.ok ()) .error

/-- The place and the mode of the file that a path leads to, made empty, or nothing if
what is written there is lost. A file that is not there is made. -/
def openEmpty (m : Machine) (p : Path) : Except Fault (Option (Location × Bool) × Machine) := do
  let last ← m.tree.lastStep m.workDir p
  match last.step with
  | .stay | .up => throw .isDirectory
  | .name name =>
    if last.slash then throw .isDirectory
    let place ← m.tree.walk true Tree.linkLimit last.directory [.name name]
    let emptied (executable : Bool) : Except Fault (Option (Location × Bool) × Machine) := do
      m.permit (.openFile place)
      return (some (place, executable), m.withTree (m.tree.put place (.file .empty executable)))
    match m.tree.get? place with
    | none => emptied false
    | some (.file _ executable) => emptied executable
    | some (.tool _) => emptied true
    | some .directory => throw .isDirectory
    | some _ => return (none, m)

/-- Makes a directory where nothing is. -/
def makeDir (m : Machine) (p : Path) : Except Fault Machine := do
  let last ← m.tree.lastStep m.workDir p
  match last.step with
  | .stay | .up => throw .taken
  | .name name =>
    let place ← m.tree.walk false Tree.linkLimit last.directory [.name name]
    match m.tree.get? place with
    | none =>
      m.permit (.makeDir place)
      return m.withTree (m.tree.put place .directory)
    | some _ => throw .taken

/-- Moves the file at a place to a path, over a file that may stand there. -/
def replace (m : Machine) (source : Location) (p : Path) : Except Fault Machine := do
  let last ← m.tree.lastStep m.workDir p
  match last.step with
  | .stay | .up => throw .busy
  | .name name =>
    let place ← m.tree.walk false Tree.linkLimit last.directory [.name name]
    if last.slash then throw .notDirectory
    match m.tree.get? place, m.tree.get? source with
    | some .directory, _ => throw .isDirectory
    | _, none => throw .notFound
    | _, some entry =>
      m.permit (.move source place)
      return m.withTree ((m.tree.erase source).put place entry)

/-- Takes away the file at a place. A directory stays. -/
def remove (m : Machine) (place : Location) : Machine :=
  m.withTree (if m.tree.get? place = some .directory then m.tree else m.tree.erase place)

/-- The characters of temporary names. -/
def letters : List Char :=
  "0123456789ABCDEFGHIJKLMNOPQRSTUVWXYZabcdefghijklmnopqrstuvwxyz".toList

/-- Six characters that differ for every number below `62 ^ 6`. -/
def tempLetters (n : Nat) : List Char :=
  (List.range 6).map fun i => letters.getD (n / Nat.pow 62 i % 62) '0'

/-- The temporary name of a number, in front of an ending. -/
def tempName (ending : String) (n : Nat) : String :=
  ".preview-" ++ String.ofList (tempLetters n) ++ ending

/-- Makes a new empty file in a directory, under a name that nothing has there. A fault
names the path that was tried. -/
def makeTemp (m : Machine) (dir : Path) (ending : String) :
    Except (Path × Fault) (Location × Path × Machine) :=
  let candidate (n : Nat) : Path := dir.join ⟨tempName ending n⟩
  let taken (n : Nat) : Bool := m.exists? (candidate n)
  match (List.range (m.tree.entries.length + 1)).find? fun n => !taken n with
  | none => .error (candidate 0, .taken)
  | some n =>
    match m.tree.locate m.workDir (candidate n) with
    | .error fault => .error (candidate n, fault)
    | .ok place =>
      match m.permit (.openFile place) with
      | .error fault => .error (candidate n, fault)
      | .ok () => .ok (place, candidate n, m.withTree (m.tree.put place (.file .empty false)))

end Machine

namespace Action

/-- A change that is made as a whole or not at all. -/
def change (f : Machine → Except Fault Machine) : Action Unit := fun m =>
  match f m with
  | .ok after => (.ok (), after)
  | .error fault => (.error fault, m)

/-- Puts content into the file at a place, as far as it fits. -/
def pour (place : Location) (executable : Bool) (content : ByteArray) : Action Unit := fun m =>
  let hold (kept : ByteArray) := m.withTree (m.tree.put place (.file kept executable))
  match m.permit (.fill place), m.sizeLimit with
  | .error fault, _ => (.error fault, m)
  | .ok (), none => (.ok (), hold content)
  | .ok (), some limit =>
    if content.size ≤ limit then (.ok (), hold content)
    else (.error .tooLarge, hold (content.extract 0 limit))

/-- Puts content into the file that a path leads to, in place of what it held. A file
that is not there is made. -/
def write (p : Path) (content : ByteArray) : Action Unit := fun m =>
  match m.openEmpty p with
  | .error fault => (.error fault, m)
  | .ok (none, m) => (.ok (), m)
  | .ok (some (place, executable), m) => pour place executable content m

/-- Makes the first of some directories, unless it is there. Each is held by the next,
which is made first where it is missing. -/
def makeNested : List Path → Action Unit
  | [] => throw .noRoot
  | p :: parents => fun m =>
    if p.text = "" then (.ok (), m)
    else
      match m.makeDir p with
      | .ok after => (.ok (), after)
      | .error .notFound =>
        match makeNested parents m with
        | (.error fault, m) => (.error fault, m)
        | (.ok (), m) =>
          match m.makeDir p with
          | .ok after => (.ok (), after)
          | .error fault => (if m.isDirectory p then .ok () else .error fault, m)
      | .error fault => (if m.isDirectory p then .ok () else .error fault, m)

/-- Makes a directory and every one that holds it, unless they are there. -/
def makeDirs (p : Path) : Action Unit :=
  makeNested (p :: p.parents)

end Action

end SongPreview
