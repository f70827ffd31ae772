import SongPreview.Config.Loading
import SongPreview.Digest

/-!
# The project in use

A session keeps the project that was loaded last and a hash of the configuration file
that it came from. The file is loaded again only if its hash has changed. A project
that cannot be loaded leaves the one in use as it is.
-/

namespace SongPreview

/-- The project in use, and the hash of its configuration file. -/
structure LiveProject where
  project : Project
  hash : Nat
  deriving DecidableEq

namespace LiveProject

/-- The hash of a file, zero if it cannot be read. -/
def hashOf (m : Machine) (p : Path) : Nat :=
  match m.read p with
  | .ok content => (Digest.of content).word64
  | .error _ => 0

/-- A project taken into use. -/
def start (m : Machine) (p : Project) : LiveProject :=
  ⟨p, hashOf m p.configPath⟩

/-- The project in use after another look at the files, or nothing if they have not
changed. -/
def reload (m : Machine) (line : CommandLine) (live : LiveProject) :
    Console × Except ConfigFault (Option LiveProject) :=
  let hash := hashOf m live.project.configPath
  if hash = live.hash then ({}, .ok none)
  else
    let (console, loaded) := Project.load m line
    (console, loaded.map fun project => some ⟨project, hash⟩)

end LiveProject

end SongPreview
