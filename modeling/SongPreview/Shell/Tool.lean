import SongPreview.Shell.Options
import SongPreview.Shell.Process

/-!
# Programs of the system

A program reads its options, does its work on the standard input or on files, and ends
with a status. It complains under the name that it was called by.
-/

namespace SongPreview.Shell

/-- A program: what it does under a name and with its arguments. -/
abbrev Tool := String → List String → Work Nat

/-- A complaint, and the status that follows it. -/
def complaint (name text : String) (code : Nat) : Work Nat := do
  complain (name ++ ": " ++ text ++ "\n")
  return code

/-- A complaint about the use of a program. -/
def misuse (name text : String) (code : Nat) : Work Nat :=
  complaint name (text ++ "\nTry '" ++ name ++ " --help' for more information.") code

/-- Writes a text to the standard output. A program that cannot do so gives up. -/
def tell (name text : String) : Work Unit := do
  match ← write 1 text with
  | .ok () => pure ()
  | .error fault =>
    let words := if fault = .badNumber then "Bad file descriptor" else "Broken pipe"
    complain (name ++ ": write error: " ++ words ++ "\n")
    endWith 1

/-- Reads the options of a program, or gives up. -/
def withOptions (o : Options) (name : String) (arguments : List String)
    (use : Given → Work Nat) : Work Nat :=
  match o.read arguments with
  | .ok given => use given
  | .error text => misuse name text 1

/-- A file name in a complaint. Quotes stand around a name with unusual characters. -/
def mentioned (file : String) : String :=
  if file ≠ "" ∧ file.all fun c => c.isAlphanum || c ∈ "_./-+,:@%^=".toList then file
  else if '\'' ∈ file.toList then "\"" ++ file ++ "\""
  else "'" ++ file ++ "'"

/-- A file name in a complaint, with quotes around it. -/
def quotedName (file : String) : String :=
  if '\'' ∈ file.toList then "\"" ++ file ++ "\"" else "'" ++ file ++ "'"

/-- The number by which a program reads a file. -/
def fileNumber : Nat := 100

/-- Reads a file, or the standard input for a hyphen. -/
def reading (file : String) (complain? : Fault → Work Unit) (use : Nat → Work Unit) :
    Work Bool := do
  if file = "-" then
    use 0
    return true
  else
    match ← openToRead file with
    | .error fault =>
      complain? fault
      return false
    | .ok handle =>
      setHandle fileNumber handle
      use fileNumber
      closeHandle fileNumber
      return true

/-- Reads files one after the other, or the standard input if there are none. The status
tells whether all could be read. -/
def readingAll (files : List String) (complain? : String → Fault → Work Unit)
    (use : String → Nat → Work Unit) : Work Nat :=
  (if files = [] then ["-"] else files).foldlM (fun code file => do
    return if ← reading file (complain? file) (use file) then code else 1) 0

/-- A complaint about a file that cannot be read. -/
def unreadable (name file : String) (fault : Fault) : Work Unit :=
  complain (name ++ ": " ++ mentioned file ++ ": " ++ fault.words ++ "\n")

end SongPreview.Shell
