import SongPreview.CommandLine
import SongPreview.Config.Checking
import SongPreview.Config.Reading
import SongPreview.Console
import SongPreview.Machine

/-!
# Loading configurations

The configuration file is looked for from the working directory upwards; without one
every value has its default. Paths in the file are read from the directory that holds
it. Options of the command line come last, so they win, and what is checked is the
configuration that they leave.
-/

namespace SongPreview

/-- A configuration in its place. -/
structure Project where
  config : Config
  /-- The configuration file, or the place where it would be. -/
  configPath : Path
  /-- The directory that paths in the file are read from. -/
  root : Path
  deriving DecidableEq, Repr

namespace Config

/-- The configuration with every path of the file read from inside `root`. -/
def resolve (home root : Path) (c : Config) : Config :=
  { c with
    render := c.render.resolve home root
    preview := { c.preview with
      output := c.preview.output.map (Path.expand home root)
      log := c.preview.log.map (Path.expand home root) } }

/-- The configuration with the options about the renderer. -/
def withOptions (o : RendererOptions) (c : Config) : Config :=
  { c with
    renderer := { c.renderer with
      command := o.renderer.elim c.renderer.command fun p => [p.text]
      timeout := o.timeout.getD c.renderer.timeout
      input := if o.stdin then .stdin else c.renderer.input }
    render := { c.render with transpose := o.transpose.getD c.render.transpose } }

/-- The configuration with the options of a command. -/
def withCommand (command : Command) (c : Config) : Config :=
  let c := c.withOptions command.options
  match command with
  | .watch _ _ output log pane debounce =>
    { c with
      pipeline := { debounce := debounce.getD c.pipeline.debounce }
      preview := {
        pane := pane.getD c.preview.pane
        output := output.or c.preview.output
        log := log.or c.preview.log } }
  | .render _ _ output =>
    { c with preview := { c.preview with output := output.or c.preview.output } }
  | .info .. => c

/-- The remark about keys that have no effect. -/
def unknownKeysRemark (path : Path) (keys : List String) : Console :=
  if keys = [] then {}
  else
    ⟨Terminal.logLine "warning"
        ("unknown fields in " ++ path.fileName?.getD path.text ++ ", ignoring:"),
      String.join (keys.map fun key => "- " ++ key ++ "\n")⟩

/-- Reads a configuration file. -/
def readFile (m : Machine) (path : Path) : Console × Except ConfigFault Config :=
  match m.readText path with
  | .error fault => ({}, .error (.unreadable path fault))
  | .ok document =>
    match parse? document with
    | none => ({}, .error .malformed)
    | some (c, keys) => (unknownKeysRemark path keys, .ok c)

end Config

namespace Project

/-- The project of a configuration that was found at `configPath`, with the options of
a command line. -/
def finish (m : Machine) (line : CommandLine) (configPath : Path) (c : Config) : Project :=
  let root := configPath.parent?.getD m.workPath
  ⟨(c.resolve m.home root).withCommand line.command, configPath, root⟩

/-- A project that can be used. -/
def check (p : Project) : Except ConfigFault Project :=
  if p.config.problems = [] then .ok p else .error (.invalid p.config.problems)

/-- The project that the files and a command line give, before anyone checks it. -/
def assemble (m : Machine) (line : CommandLine) : Console × Except ConfigFault Project :=
  if m.hasWorkDir then
    match m.findUpward line.config m.workPath with
    | none => ({}, .ok (finish m line (m.workPath.join line.config) {}))
    | some path =>
      let (console, read) := Config.readFile m path
      (console, read.map (finish m line (m.normalize path)))
  else ({}, .error .noWorkDir)

/-- The project of a command line. -/
def load (m : Machine) (line : CommandLine) : Console × Except ConfigFault Project :=
  let (console, assembled) := assemble m line
  (console, assembled >>= check)

end Project

end SongPreview
