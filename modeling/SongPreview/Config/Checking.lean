import SongPreview.Colour
import SongPreview.Config
import SongPreview.Diagnostic
import SongPreview.Machine.Fault
import SongPreview.Text

/-!
# Checking configurations

A configuration can be used if it names a program, leaves the renderer some time,
and waits for less than that time before it renders. `problems` lists every
condition that fails.
-/

namespace SongPreview

namespace Config

/-- A value that cannot be used. -/
structure Problem where
  field : String
  message : String
  hint : Option String
  deriving DecidableEq, Repr

namespace Problem

/-- No word of the renderer's command says anything. -/
def emptyCommand : Problem :=
  ⟨"renderer.command", "renderer command is empty",
    some "set it to the chordpro executable, e.g. [\"chordpro\"]"⟩

/-- The renderer is given no time. -/
def noTime : Problem :=
  ⟨"renderer.timeout_ms", "timeout must be greater than zero", none⟩

/-- The wait before a rendering is not shorter than the rendering may take. -/
def longDebounce (debounce timeout : Nat) : Problem :=
  ⟨"pipeline.debounce_ms",
    "debounce (" ++ toString debounce ++ "ms) must be shorter than the renderer timeout (" ++
      toString timeout ++ "ms)",
    some "typical values are 100-500ms"⟩

/-- A problem on the terminal. -/
def shown (p : Problem) : String :=
  "  " ++ Colour.paint .red "•" ++ " " ++ Colour.paint .brightBlue (Path.quote p.field) ++ ": " ++
    p.message ++
    (p.hint.elim "" fun hint => "\n    " ++ Colour.paint .yellow "hint:" ++ " " ++ hint)

/-- A problem in one line. -/
def line (p : Problem) : String :=
  p.field ++ ": " ++ p.message ++ p.hint.elim "" fun hint => " (" ++ hint ++ ")"

end Problem

/-- Everything that is wrong with a configuration. -/
def problems (c : Config) : List Problem :=
  (if c.renderer.command.all Text.isBlankString then [Problem.emptyCommand] else []) ++
  (if c.renderer.timeout = 0 then [Problem.noTime] else []) ++
  (if c.renderer.timeout ≤ c.pipeline.debounce then
    [Problem.longDebounce c.pipeline.debounce c.renderer.timeout]
  else [])

end Config

/-- Why no configuration could be loaded. -/
inductive ConfigFault where
  /-- The directory that the search starts from is gone. -/
  | noWorkDir
  | unreadable (path : Path) (fault : Fault)
  /-- The file is not a document of the right form. -/
  | malformed
  | invalid (problems : List Config.Problem)
  deriving DecidableEq, Repr

namespace ConfigFault

/-- The wording on the terminal, without the cause. -/
def message : ConfigFault → String
  | noWorkDir => "Failed to get current working directory"
  | unreadable path _ => "cannot read " ++ Path.quote path.text
  | malformed => "invalid TOML: malformed document"
  | invalid problems =>
    let noun := if problems.length = 1 then "problem" else "problems"
    let head := "invalid config (" ++ toString problems.length ++ " " ++ noun ++ "):"
    Colour.paintBold .red head ++ String.join (problems.map fun p => "\n" ++ p.shown)

/-- The fault's own cause, if it has one. -/
def cause? : ConfigFault → Option String
  | noWorkDir => some Fault.notFound.message
  | unreadable _ fault => some fault.message
  | _ => none

/-- The warnings that tell of a fault, in one line each. -/
def warnings (time : Int) : ConfigFault → List Diagnostic
  | noWorkDir => [.unattributed .warning ("config reload failed: " ++ noWorkDir.message) time]
  | unreadable path fault =>
    [.unattributed .warning ("cannot read " ++ path.text ++ ": " ++ fault.message) time]
  | malformed => [.unattributed .warning "invalid TOML: malformed document" time]
  | invalid problems => problems.map fun p => .unattributed .warning p.line time

end ConfigFault

end SongPreview
