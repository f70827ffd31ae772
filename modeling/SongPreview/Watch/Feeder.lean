import SongPreview.Watch.ConfigChange
import SongPreview.Watch.FileChange
import SongPreview.Watch.LiveProject

/-!
# From files to events

The feeder tells a scene what has changed on disk. A saved song becomes an edit with
the settings of the feeder; a changed configuration becomes the events that lead from
the old one to the new one. Nothing more is sent once the scene is gone.
-/

namespace SongPreview

/-- What turns changes of files into events. -/
structure Feeder where
  song : Path
  configPath : Path
  /-- The absolute paths of the files that the renderer reads beside the song. -/
  resources : List Path
  line : CommandLine
  live : LiveProject
  /-- The settings of the next edit. -/
  settings : Settings
  /-- The document that was sent last. -/
  latest : Option Document
  /-- Whether the log is to tell more. -/
  verbose : Bool
  deriving DecidableEq

/-- What the feeder printed and sent, and whether the scene is still there. -/
structure Fed where
  printed : String := ""
  sent : List Event := []
  open? : Bool := true
  deriving DecidableEq

namespace Fed

/-- Prints a text. -/
def print (text : String) : Fed := { printed := text }

/-- Sends events to a scene that may be gone. -/
def send (listening : Bool) (events : List Event) : Fed :=
  if listening ∨ events = [] then { sent := events } else { open? := false }

/-- One thing and then another. Nothing follows once the scene is gone. -/
def andThen (a b : Fed) : Fed :=
  if a.open? then ⟨a.printed ++ b.printed, a.sent ++ b.sent, b.open?⟩ else a

end Fed

namespace Feeder

/-- A feeder for a song, before anything was read. -/
def new (m : Machine) (line : CommandLine) (live : LiveProject) (song : Path) (verbose : Bool) :
    Feeder where
  song := m.normalize song
  configPath := live.project.configPath
  resources := Watched.resourcesOf m live.project.config.render
  line
  live
  settings := live.project.config.render
  latest := none
  verbose

/-- The files that the feeder waits for. -/
def watched (f : Feeder) : Watched :=
  ⟨f.song, f.configPath, f.resources⟩

/-- The directories to watch for a start. -/
def directories (m : Machine) (f : Feeder) : List Path :=
  Watched.newDirectories m [] (f.song :: f.configPath :: f.resources)

/-- A line of the log that is written only if more is wanted. -/
def debug (f : Feeder) (message : String) : Fed :=
  .print (Terminal.debugLine f.verbose "watch" message)

/-- Reads the song and sends it as an edit. A song that cannot be read, as in the
middle of a save, is left for the next report. -/
def songChanged (m : Machine) (listening : Bool) (f : Feeder) : Feeder × Fed :=
  match m.readText f.song with
  | .error fault => (f, f.debug ("cannot read " ++ f.song.text ++ ": " ++ fault.message))
  | .ok text =>
    let document : Document := ⟨text, f.settings, .file f.song⟩
    ({ f with latest := some document }, .send listening [.edit document])

/-- Keeps the document of an edit and its settings. -/
def keep (f : Feeder) : Event → Feeder
  | .edit d => { f with settings := d.settings, latest := some d }
  | _ => f

/-- Looks at the configuration again and sends what has changed. -/
def configChanged (m : Machine) (listening : Bool) (f : Feeder) : Feeder × Fed :=
  let (console, reloaded) := f.live.reload m f.line
  let said := Fed.print console.out
  match reloaded with
  | .ok none => (f, said)
  | .ok (some live) =>
    let events := f.live.project.config.changeEvents m.time live.project.config f.latest
    let resources := Watched.resourcesOf m live.project.config.render
    (events.foldl keep { f with live, resources },
      said.andThen <| (Fed.print (Terminal.logLine "watch" "config reloaded")).andThen <|
        .send listening events)
  | .error fault =>
    (f, said.andThen <|
      (Fed.print (Terminal.logLine "warning" "config reload failed, keeping previous settings")
        ).andThen <| .send listening ((fault.warnings m.time).map .notice))

end Feeder

end SongPreview
