import SongPreview.Watch.Feeder

/-!
# Watching a song

A session reads the song once and then goes through the reports about files in their
order. Of the files that one report is about, the configuration comes first, then what
the renderer reads beside the song, and the song last.
-/

namespace SongPreview

/-- What the machine tells a session. -/
inductive Report where
  | change (change : FileChange)
  /-- The machine failed to watch. -/
  | fault (text : String)
  deriving DecidableEq, Repr

/-- A feeder and the directories under watch. -/
structure Session where
  feeder : Feeder
  directories : List Path

namespace Session

/-- A session before anything was read. -/
def new (m : Machine) (f : Feeder) : Session :=
  ⟨f, f.directories m⟩

/-- Puts the directories of new files under watch. -/
def watchResources (m : Machine) (s : Session) : Session × Fed :=
  let found := Watched.newDirectories m s.directories s.feeder.resources
  ({ s with directories := s.directories ++ found },
    found.foldl (fun fed dir => fed.andThen (s.feeder.debug ("watching " ++ dir.text))) {})

/-- Looks at the configuration if it was touched. -/
def configStep (m : Machine) (listening : Bool) (touched : Touched) (s : Session) :
    Session × Fed :=
  if touched.config then
    let (feeder, fed) := s.feeder.configChanged m listening
    if fed.open? then
      let (s, watching) := watchResources m { s with feeder }
      (s, fed.andThen watching)
    else ({ s with feeder }, fed)
  else (s, {})

/-- Asks for a new rendering if something beside the song was touched. -/
def resourceStep (listening : Bool) (touched : Touched) (s : Session) : Fed :=
  if touched.resource then
    (s.feeder.debug "renderer config changed").andThen (.send listening [.refresh])
  else {}

/-- Reads the song if it was touched. -/
def songStep (m : Machine) (listening : Bool) (touched : Touched) (s : Session) :
    Session × Fed :=
  if touched.song then
    let (feeder, fed) := s.feeder.songChanged m listening
    ({ s with feeder }, fed)
  else (s, {})

/-- Goes through one report. What it is about is decided before anything is read. -/
def step (m : Machine) (listening : Bool) (s : Session) : Report → Session × Fed
  | .fault text => (s, .print (Terminal.logLine "watch" ("notify error: " ++ text)))
  | .change change =>
    let touched := s.feeder.watched.touched m change
    let (s, configFed) := s.configStep m listening touched
    let fed := configFed.andThen (s.resourceStep listening touched)
    if fed.open? then
      let (s, songFed) := s.songStep m listening touched
      (s, fed.andThen songFed)
    else (s, fed)

/-- Goes through reports until the scene is gone. -/
def steps (m : Machine) (listening : Bool) (s : Session) : List Report → Session × Fed
  | [] => (s, {})
  | report :: rest =>
    let (s, fed) := s.step m listening report
    if fed.open? then
      let (s, more) := steps m listening s rest
      (s, fed.andThen more)
    else (s, fed)

/-- Reads the song and goes through reports. -/
def run (m : Machine) (listening : Bool) (s : Session) (reports : List Report) : Session × Fed :=
  let said := Fed.print (Terminal.logLine "watch" ("watching " ++ s.feeder.song.text))
  let (feeder, fed) := s.feeder.songChanged m listening
  let fed := said.andThen fed
  let s : Session := { s with feeder }
  if fed.open? then
    let (s, more) := s.steps m listening reports
    (s, fed.andThen more)
  else (s, fed)

end Session

end SongPreview
