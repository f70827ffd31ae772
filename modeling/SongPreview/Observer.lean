import SongPreview.Machine.Saving
import SongPreview.Scene
import SongPreview.Terminal

/-!
# The observer of a scene

In a session the observer sees scenes, perhaps not all of them. A page that is new goes
to the output file, and its log to the log file. The status block tells of the last
change of generation or status; a longer log under the same two is told line by line.
-/

namespace SongPreview

/-- What the observer knows: where results go, what it has seen, and the block that it
printed last. -/
structure Observer where
  output : Path
  logPath : Option Path
  /-- Whether the log is to tell more. -/
  verbose : Bool
  /-- The generation and the status of the last scene that was told. -/
  seen : Nat × Status := (0, .idle)
  /-- The length of the last log. -/
  seenLog : Nat := 0
  block : Terminal.StatusBlock := {}
  deriving DecidableEq, Repr

/-- Changes to a machine and to the observer, with what is printed. -/
abbrev Observing := StateM (Machine × Observer)

namespace Observer

/-- Prints a report over the last status block. -/
def report (r : Terminal.StatusReport) : Observing String := fun (m, o) =>
  let (text, block) := o.block.display (Layout.clockTime m.time) r
  (text, m, { o with block })

/-- Saves something. -/
def save (saving : Saving Unit) : Observing (Except SaveFault Unit) := fun (m, o) =>
  let (result, m) := saving m
  (result, m, o)

/-- The report on a saved page. A log with more than notices is shown with it. -/
def savedReport (name : String) (output : Path) (size : Nat) (log : List Diagnostic) :
    Terminal.StatusReport :=
  let summary :=
    "rendered " ++ name ++ " → " ++ output.text ++ " (" ++ Layout.formatSize size ++ ")"
  match Diagnostic.worst? log with
  | some .warning | some .error => .warning (summary ++ "\n" ++ Diagnostic.summarize log)
  | _ => .success summary

/-- Saves the page of a scene and tells of it. -/
def savePage (s : Scene) : Observing String :=
  match s.artifact with
  | none => pure ""
  | some page => do
    let (_, o) ← get
    match ← save (Saving.replace o.output page) with
    | .error fault =>
      report (.error ("cannot write preview for " ++ s.source.shortName) fault.text)
    | .ok () => report (savedReport s.source.shortName o.output page.size s.log)

/-- Saves the log of a scene, if it is wanted. -/
def saveLog (s : Scene) : Observing String := do
  let (_, o) ← get
  match o.logPath with
  | none => return ""
  | some path =>
    match ← save (Saving.writeLog path s.log) with
    | .error fault => return Terminal.logLine "warning" fault.text
    | .ok () => return ""

/-- Tells of a scene whose generation or status is new. -/
def tell (s : Scene) : Observing String := do
  let name := s.source.shortName
  match s.status with
  | .rendering =>
    let (_, o) ← get
    let said := Terminal.debugLine o.verbose "render" ("generation " ++ toString s.generation)
    return said ++ (← report (.rendering ("rendering " ++ name)))
  | .succeeded =>
    let page ← savePage s
    return page ++ (← saveLog s)
  | .failed =>
    let shown ← report (.error ("render failed: " ++ name) (Diagnostic.summarize s.log))
    return shown ++ (← saveLog s)
  | .idle =>
    if 0 < s.generation then
      report (.unchanged (name ++ ": preview off (" ++ s.pane.label ++ ")"))
    else return ""

/-- Looks at a scene. Under the same generation and status, what was added at the end
of the log is told. -/
def observe (s : Scene) : Observing String := do
  let (m, o) ← get
  set (m, { o with seen := (s.generation, s.status), seenLog := s.log.length })
  if (s.generation, s.status) = o.seen then
    return String.join ((s.log.drop o.seenLog).map Terminal.diagnosticLine)
  else tell s

/-- Tells of a diagnostic while the rendering goes on. -/
def tellLive (o : Observer) (d : LiveDiagnostic) : String :=
  Terminal.debugLine o.verbose "render"
    ("[" ++ toString d.generation ++ "] " ++ d.diagnostic.text)

end Observer

end SongPreview
