import SongPreview.Command.Fault
import SongPreview.Config.Loading
import SongPreview.Rendering

/-!
# Running commands

A song is rendered once, or the renderer is asked about itself. Rendering writes the log
if one is wanted, whatever came of it, and the page if there is one.
-/

namespace SongPreview.Command

/-- What is printed, what comes of a command, and the machine afterwards. -/
structure Done where
  console : Console
  result : Except CommandFault Unit
  machine : Machine

namespace Done

/-- A command that did its work. -/
def ok (m : Machine) (console : Console) : Done := ⟨console, .ok (), m⟩

/-- A command that did not do its work. -/
def failed (m : Machine) (console : Console) (fault : CommandFault) : Done :=
  ⟨console, .error fault, m⟩

end Done

/-- Saves something on the way to an end. -/
def saving (m : Machine) (console : Console) (save : Saving Unit) (next : Machine → Done) : Done :=
  match save m with
  | (.error fault, m) => .failed m console (.save fault)
  | (.ok (), m) => next m

/-- Stores the outcome of a rendering. -/
def storeOutcome (m : Machine) (console : Console) (output : Path) : Outcome → Done
  | .success page =>
    saving m console (Saving.replace output page) fun m =>
      .ok m (console ++ .ofOut (Terminal.logLine "render"
        (output.text ++ " (" ++ Layout.formatSize page.size ++ ")")))
  | .failed (some code) => .failed m console (.rendererExited code)
  | .failed none => .failed m console .renderFailed
  | .cancelled => .failed m console .renderCancelled

/-- Stores the log of a rendering and its outcome. -/
def storeResult (m : Machine) (console : Console) (c : Config.Preview) (song : Path)
    (result : RenderResult) : Done :=
  let store (m : Machine) : Done :=
    let shown :=
      if result.log = [] then {} else Console.ofOut (Diagnostic.summarize result.log ++ "\n")
    storeOutcome m (console ++ shown) (c.outputFor song) result.outcome
  match c.log with
  | none => store m
  | some path => saving m console (Saving.writeLog path result.log) store

/-- The only request of a rendering. -/
def requestFor (config : Config) (song : Path) (text : String) : Request :=
  ⟨1, ⟨text, config.render, .file song⟩, config.preview.pane⟩

/-- Renders a song once. The time of a cancellation counts from the start of the renderer. -/
def renderSong (host : Host) (m : Machine) (config : Config) (verbose : Bool)
    (cancel : Option Nat) (song : Path) : Done :=
  let song := m.normalize song
  match m.readText song with
  | .error fault => .failed m {} (.unreadableSong song fault)
  | .ok text =>
    let rendered := Rendering.render host config.renderer (requestFor config song text) cancel m
    let remarks := String.join (rendered.remarks.map (Terminal.debugLine verbose "render"))
    storeResult rendered.machine (.ofOut remarks) config.preview song rendered.result

/-- Shows what the renderer says about itself, or the directives that it understands. -/
def showInfo (host : Host) (m : Machine) (config : Config) (directives : Bool) : Done :=
  match RendererInfo.query host m config.renderer with
  | (.error fault, m) => .failed m {} (.info fault)
  | (.ok about, m) =>
    .ok m <| .ofOut <|
      if directives then String.join ((Directive.known (some about)).map Directive.line)
      else about.report

/-- Runs a command that comes to an end by itself. Watching does not. -/
def run (host : Host) (m : Machine) (config : Config) (verbose interrupted : Bool) :
    Command → Done
  | .render song .. =>
    renderSong host m config verbose (if interrupted then some 1 else none) song
  | .info _ directives => showInfo host m config directives
  | .watch .. => .ok m {}

/-- Loads the project of a command line and runs its command. -/
def runLine (host : Host) (m : Machine) (line : CommandLine) (verbose interrupted : Bool) : Done :=
  let (console, loaded) := Project.load m line
  match loaded with
  | .error fault => .failed m console (.config fault)
  | .ok project =>
    let done := run host m project.config verbose interrupted line.command
    { done with console := console ++ done.console }

end SongPreview.Command
