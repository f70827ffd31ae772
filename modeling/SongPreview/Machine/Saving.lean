import SongPreview.Diagnostic
import SongPreview.Machine

/-!
# Saving results

A page is saved so that its readers see the old content or the new one: it is written
to a temporary file next to its place, which is then moved there. A log is written in
place. Missing directories are made in both cases.
-/

namespace SongPreview

/-- Why something was not saved. -/
inductive SaveFault where
  /-- The directory of the file could not be made. -/
  | directory (dir : Path) (fault : Fault)
  /-- There is no temporary file. -/
  | temporary (dir temp : Path) (fault : Fault)
  /-- The temporary file did not take the content. -/
  | content (path temp : Path) (fault : Fault)
  /-- The temporary file could not be moved to its place. -/
  | replacement (path : Path) (fault : Fault)
  /-- The log could not be written. -/
  | log (path : Path) (fault : Fault)
  deriving DecidableEq, Repr

namespace SaveFault

/-- What was not done. -/
def message : SaveFault → String
  | directory dir _ => "Failed to create " ++ Path.quote dir.text
  | temporary dir _ _ => "Failed to create temporary file in " ++ Path.quote dir.text
  | content path _ _ => "Failed to write " ++ Path.quote path.text
  | replacement path _ => "Failed to replace " ++ Path.quote path.text
  | log path _ => "Failed to write log to " ++ Path.quote path.text

/-- Why it was not done. -/
def cause : SaveFault → String
  | temporary _ temp fault | content _ temp fault => fault.atPath temp
  | directory _ fault | replacement _ fault | log _ fault => fault.message

/-- The message with its cause. -/
def text (f : SaveFault) : String :=
  f.message ++ ": " ++ f.cause

end SaveFault

/-- Changes to a machine that save something. -/
abbrev Saving := ExceptT SaveFault (StateM Machine)

namespace Saving

/-- An action, with what its fault means here. -/
def of {α : Type} (name : Fault → SaveFault) (action : Action α) : Saving α := fun m =>
  match action m with
  | (.ok value, m) => (.ok value, m)
  | (.error fault, m) => (.error (name fault), m)

/-- The directory that holds a file. -/
def directoryOf (p : Path) : Path :=
  match p.parent? with
  | some parent => if parent.text = "" then ⟨"."⟩ else parent
  | none => ⟨"."⟩

/-- Writes a temporary file and moves it to a path. Where that fails, the temporary
file is taken away. -/
def replaceFrom (dir p : Path) (content : ByteArray) : Saving Unit := fun m =>
  match m.makeTemp dir "" with
  | .error (temp, fault) => (.error (.temporary dir temp fault), m)
  | .ok (place, temp, m) =>
    match Action.pour place false content m with
    | (.error fault, m) => (.error (.content p temp fault), m.remove place)
    | (.ok (), m) =>
      match m.replace place p with
      | .error fault => (.error (.replacement p fault), m.remove place)
      | .ok m => (.ok (), m)

/-- Replaces the content of a file at once. -/
def replace (p : Path) (content : ByteArray) : Saving Unit := do
  let dir := directoryOf p
  of (SaveFault.directory dir) (Action.makeDirs dir)
  replaceFrom dir p content

/-- Writes a log to a file. -/
def writeLog (p : Path) (log : List Diagnostic) : Saving Unit := do
  match p.parent? with
  | some dir => if dir.text ≠ "" then of (SaveFault.directory dir) (Action.makeDirs dir)
  | none => pure ()
  of (SaveFault.log p) (Action.write p (Diagnostic.formatLog log).toUTF8)

end Saving

end SongPreview
