import SongPreview.Machine.Plain
import SongPreview.Program
import SongPreview.Shell.Hosting

/-!
# The executable

The files that the command line leads to are taken into a machine, the program runs
there, and the files that it has changed are written back.
-/

namespace SongPreview

/-- A machine with one more file, if it can be read. -/
def loadFile (m : Machine) (path : Path) : IO Machine := do
  try
    let content ← IO.FS.readBinFile path.text
    let place := Machine.placeOf path
    let dirs := (List.range place.length).drop 1 |>.map place.drop
    let tree := dirs.foldl (fun (tree : Tree) dir =>
      if (tree.get? dir).isSome then tree else tree.put dir .directory) m.tree
    return m.withTree (tree.put place (.file content false))
  catch _ => return m

/-- Writes a file unless it was there before with the same content. -/
def storeFile (before : Machine) (place : Location) (entry : Entry) : IO Unit := do
  match entry with
  | .file content _ =>
    if before.tree.get? place ≠ some entry then
      IO.FS.createDirAll (Location.path place.tail).text
      IO.FS.writeBinFile place.path.text content
  | _ => pure ()

end SongPreview

open SongPreview

/-- Runs the program on the files of the system. -/
def main (arguments : List String) : IO UInt32 := do
  let workDir : Path := ⟨(← IO.currentDir).toString⟩
  let place := Machine.placeOf workDir
  let start := { Machine.plain with
    workDir := place
    home := ⟨(← IO.getEnv "HOME").getD "/"⟩ }
  let start := start.withTree (start.tree.put place .directory)
  let before ← (Program.files workDir arguments).foldlM loadFile start
  let exit := Program.run Shell.host before arguments
  exit.machine.tree.entries.forM fun (place, entry) => storeFile before place entry
  IO.print exit.console.out
  IO.eprint exit.console.err
  return exit.code.toUInt32
