import SongPreview.Machine

/-!
# A plain machine

The files that a machine has before anyone works on it: the programs of the system in
their directory, the devices, and a directory for temporary files.
-/

namespace SongPreview.Machine

/-- The place of an absolute path without links and dots. -/
def placeOf (p : Path) : Location :=
  (p.components.filterMap fun
    | .name name => some name
    | _ => none).reverse

/-- The programs of the system. -/
def tools : List String :=
  ["sh", "printf", "cat", "sleep", "echo", "head", "tail", "tr", "wc", "sed", "basename",
    "dirname", "setsid", "true", "false", "test", "[", "pwd", "env", "seq", "tee"]

/-- The files of a plain machine. -/
def plainTree : Tree :=
  ⟨(["/bin", "/sbin"].map fun p => (placeOf ⟨p⟩, .link ⟨"usr/bin"⟩)) ++
    (["/usr", "/usr/bin", "/tmp", "/home", "/etc", "/dev"].map fun p =>
      (placeOf ⟨p⟩, .directory)) ++
    (tools.map fun name => ([name, "bin", "usr"], .tool name)) ++
    [(["null", "dev"], .device .null), (["zero", "dev"], .device .zero)]⟩

/-- A plain machine. -/
def plain : Machine where
  tree := plainTree
  workDir := ["tmp"]
  home := ⟨"/home/tester"⟩
  tempDir := ⟨"/tmp"⟩
  searchPath := [⟨"/usr/bin"⟩, ⟨"/bin"⟩]
  time := 0

end SongPreview.Machine
