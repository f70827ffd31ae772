import SongPreview.Document

/-!
# Command lines

What a command line asks for, and the ways in which one can be wrong.
-/

namespace SongPreview

/-- When output is coloured. -/
inductive ColourChoice where
  | auto
  | always
  | never
  deriving DecidableEq, Repr

namespace ColourChoice

/-- The word for a choice. -/
def name : ColourChoice → String
  | auto => "auto"
  | always => "always"
  | never => "never"

/-- The choice of a word. -/
def ofName? (s : String) : Option ColourChoice :=
  [auto, always, never].find? fun c => c.name = s

end ColourChoice

/-- The options about the renderer that every command has. -/
structure RendererOptions where
  renderer : Option Path := none
  timeout : Option Nat := none
  stdin : Bool := false
  transpose : Option Int := none
  deriving DecidableEq, Repr

/-- What to do. -/
inductive Command where
  | watch (song : Path) (options : RendererOptions) (output log : Option Path)
      (pane : Option Pane) (debounce : Option Nat)
  | render (song : Path) (options : RendererOptions) (output : Option Path)
  | info (options : RendererOptions) (directives : Bool)
  deriving DecidableEq, Repr

/-- The options about the renderer. -/
def Command.options : Command → RendererOptions
  | watch _ options .. => options
  | render _ options _ => options
  | info options _ => options

/-- A whole command line. -/
structure CommandLine where
  colour : ColourChoice := .auto
  config : Path := ⟨"preview.toml"⟩
  verbose : Bool := false
  command : Command
  deriving DecidableEq, Repr

/-- What help is about: the whole program, one of its commands, or help itself. -/
inductive HelpPage where
  | overview | watch | render | info | help
  deriving DecidableEq, Repr

/-- Why a command line does not lead to a command. -/
inductive UsageFault where
  /-- Help was asked for. -/
  | help (page : HelpPage)
  /-- The version was asked for. -/
  | version
  /-- Nothing was said at all. -/
  | nothing
  | missingCommand
  | unknownCommand
  | unknownArgument
  | missingArgument
  /-- A value that is not one of the possible ones, or none, or an empty one. -/
  | invalidValue
  /-- A value that is not a number in range. -/
  | invalidNumber
  /-- An option that was given twice. -/
  | repeated
  /-- A value for an option that takes none. -/
  | unexpectedValue
  deriving DecidableEq, Repr

end SongPreview
