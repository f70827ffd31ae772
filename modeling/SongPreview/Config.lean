import SongPreview.Document

/-!
# Configuration

The choices of a configuration file, by section, with their defaults.
-/

namespace SongPreview

/-- How a song reaches the renderer. -/
inductive InputMode where
  /-- In a transient file, whose path is the last argument. -/
  | file
  /-- On the standard input; the last argument is a hyphen. -/
  | stdin
  deriving DecidableEq, Repr

namespace InputMode

/-- The word for a mode. -/
def name : InputMode → String
  | file => "file"
  | stdin => "stdin"

/-- The mode of a word. -/
def ofName? (s : String) : Option InputMode :=
  [file, stdin].find? fun m => m.name = s

end InputMode

namespace Config

/-- How the renderer is run. Times are in milliseconds. -/
structure Renderer where
  /-- The program and its first arguments. -/
  command : List String := ["chordpro"]
  /-- The arguments of the query about the renderer itself. -/
  infoArguments : List String := ["-A", "-A", "-A"]
  input : InputMode := .file
  /-- How long one rendering may take. -/
  timeout : Nat := 20000
  /-- How long a renderer that is told to end may take to do so. -/
  grace : Nat := 500
  deriving DecidableEq, Repr

/-- When requests are handed on. -/
structure Pipeline where
  /-- How long the song has to rest before it is rendered, in milliseconds. -/
  debounce : Nat := 300
  deriving DecidableEq, Repr

/-- What is shown and where results go. -/
structure Preview where
  pane : Pane := .editorAndPreview
  output : Option Path := none
  log : Option Path := none
  deriving DecidableEq, Repr

/-- The file that a song's rendered page goes to. -/
def Preview.outputFor (p : Preview) (song : Path) : Path :=
  p.output.getD (song.withExtension "pdf")

end Config

/-- A configuration. -/
structure Config where
  renderer : Config.Renderer := {}
  pipeline : Config.Pipeline := {}
  render : Settings := {}
  preview : Config.Preview := {}
  deriving DecidableEq, Repr

/-- The program that the configuration names. -/
def Config.program? (c : Config) : Option String :=
  c.renderer.command.head?

end SongPreview
