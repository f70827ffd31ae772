import SongPreview.Machine
import SongPreview.Settings

/-!
# Changes of files

The machine reports changes of files by their paths. A report counts if the content of
a file may have changed. Its paths and the watched ones are compared in their absolute
form.
-/

namespace SongPreview

/-- What happened to a file. -/
inductive ChangeKind where
  | created
  | removed
  /-- The content, the name or something unknown has changed. -/
  | modified
  /-- Nothing but the times or the permissions has changed. -/
  | metadata
  /-- The file was opened or read, or nothing is known. -/
  | other
  deriving DecidableEq, Repr

/-- Whether the content of a file may have changed. -/
def ChangeKind.counts : ChangeKind → Bool
  | created | removed | modified => true
  | metadata | other => false

/-- A report about files. -/
structure FileChange where
  kind : ChangeKind
  paths : List Path
  deriving DecidableEq, Repr

/-- The files that a session depends on, by their absolute paths. -/
structure Watched where
  song : Path
  config : Path
  /-- The files that the renderer reads beside the song. -/
  resources : List Path
  deriving DecidableEq, Repr

/-- Which of the watched files a report is about. -/
structure Touched where
  song : Bool
  config : Bool
  resource : Bool
  deriving DecidableEq, Repr

namespace Watched

/-- The absolute paths of the files that the renderer reads beside the song. -/
def resourcesOf (m : Machine) (s : Settings) : List Path :=
  s.resourceFiles.map m.normalize

/-- Which of the watched files a report is about. -/
def touched (m : Machine) (w : Watched) (change : FileChange) : Touched :=
  let paths := if change.kind.counts then change.paths.map m.normalize else []
  ⟨paths.any w.song.same, paths.any w.config.same, paths.any fun p => w.resources.any p.same⟩

/-- The directories that hold some files, each once, without those known already. -/
def newDirectories (m : Machine) (known : List Path) (files : List Path) : List Path :=
  (files.filterMap Path.parent?).foldl (fun found dir =>
    if m.isDirectory dir ∧ ¬ (known ++ found).any dir.same then found ++ [dir] else found) []

end Watched

end SongPreview
