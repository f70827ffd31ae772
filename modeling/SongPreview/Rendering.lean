import SongPreview.Config
import SongPreview.Rendering.Log
import SongPreview.Scene

/-!
# Rendering

One request is one run of the renderer. The song goes in through a temporary file or
the standard input; the page comes out on the standard output and the log on the error
output. The run is given up when it is cancelled or takes too long, and then the
renderer is ended together with its helpers. The temporary file never stays.
-/

namespace SongPreview

/-- Why a request has no result of its own: there was no run of the renderer, or its end
could not be learned. -/
inductive RenderFault where
  | emptyCommand
  | unknownProgram (word : String)
  /-- The temporary file could not be made or filled. -/
  | input (temp : Path) (fault : Fault)
  | start (program : Path) (fault : Fault)
  | wait (fault : Fault)
  deriving DecidableEq, Repr

/-- The wording of a fault. -/
def RenderFault.message : RenderFault → String
  | emptyCommand => "renderer command is empty"
  | unknownProgram word => "renderer `" ++ word ++ "` not found: cannot find binary path"
  | input temp fault => "failed to prepare renderer input: " ++ fault.atPath temp
  | start program fault => "failed to spawn `" ++ program.text ++ "`: " ++ fault.message
  | wait fault => "failed to wait for renderer: " ++ fault.message

/-- The only remark in the log of a request that has no result of its own. -/
def RenderFault.diagnostic (fault : RenderFault) (time : Int) : Diagnostic :=
  .unattributed .error fault.message time

namespace Rendering

/-- Milliseconds as microseconds. -/
def micros (milliseconds : Nat) : Nat := 1000 * milliseconds

/-- The song on its way to the renderer. -/
inductive Input where
  /-- A temporary file at a place, with its path. -/
  | file (place : Location) (path : Path)
  | stdin (text : String)
  deriving DecidableEq, Repr

namespace Input

/-- The last argument of the renderer, which is also the name of the song in its log. -/
def argument : Input → String
  | file _ path => path.text
  | stdin _ => "-"

/-- What the renderer finds on its standard input. -/
def text? : Input → Option String
  | file .. => none
  | stdin text => some text

/-- Takes the temporary file away. -/
def discard (input : Input) (m : Machine) : Machine :=
  match input with
  | file place _ => m.remove place
  | stdin _ => m

/-- Puts the song where the renderer can read it. -/
def prepare (mode : InputMode) (d : Document) (m : Machine) : Except RenderFault Input × Machine :=
  match mode with
  | .stdin => (.ok (.stdin d.text), m)
  | .file =>
    match m.makeTemp m.tempDir ("." ++ d.source.extension) with
    | .error (temp, fault) => (.error (.input temp fault), m)
    | .ok (place, temp, m) =>
      match Action.pour place false d.text.toUTF8 m with
      | (.ok (), m) => (.ok (.file place temp), m)
      | (.error fault, m) => (.error (.input temp fault), m.remove place)

end Input

/-- The program of a command and its first arguments. -/
def resolve (m : Machine) : List String → Except RenderFault (Path × List String)
  | [] => .error .emptyCommand
  | word :: leading =>
    if Text.isBlankString word then .error .emptyCommand
    else
      match m.findProgram word with
      | none => .error (.unknownProgram word)
      | some program => .ok (program, leading)

/-- The directory of the song, where paths in the song start from. -/
def workDirFor (m : Machine) (source : Source) : Option Path :=
  (source.path?.bind Path.parent?).filter m.isDirectory

/-- The run of the renderer for a document. -/
def invocation (m : Machine) (d : Document) (input : Input) (program : Path)
    (leading : List String) : Invocation where
  program
  name := program.text
  arguments := leading ++ d.settings.renderArguments input.argument
  input := input.text?
  workDir := workDirFor m d.source

/-- How the wait for the renderer ends. -/
inductive Ending where
  | cancelled (time : Nat)
  | timedOut (time : Nat)
  | finished (status : Except Fault ExitStatus)
  deriving Repr

/-- What comes first: a cancellation, the end of the time allowed, or the renderer's own
end with both pipes closed. Of several at once the first in this order counts. -/
def ending (course : Course) (cancel : Option Nat) (deadline : Nat) : Ending :=
  let done := course.finished?
  let before (time : Nat) : Bool := done.all fun d => time ≤ d.1
  match cancel, done with
  | some time, _ =>
    if time ≤ deadline ∧ before time then .cancelled time
    else if before deadline then .timedOut deadline
    else (done.elim (.timedOut deadline) fun d => .finished d.2)
  | none, none => .timedOut deadline
  | none, some d => if deadline ≤ d.1 then .timedOut deadline else .finished d.2

/-- A time allowed, in seconds with one place. It is counted in binary fractions of a
second. -/
def secondsText (milliseconds : Nat) : String :=
  let (part, scale) := Layout.nearestBinary (milliseconds % 1000) 1000
  let whole := Layout.roundTo53 (milliseconds / 1000)
  let sum := Layout.roundTo53 (whole * scale + part)
  Layout.tenths (Layout.roundQuotient (sum * 10) scale)

/-- The remark that the renderer took too long. -/
def timeoutDiagnostic (config : Config.Renderer) (time : Int) : Diagnostic :=
  .unattributed .error ("renderer timed out after " ++ secondsText config.timeout ++ "s") time

/-- The remark that the renderer has written no page. -/
def noOutputDiagnostic (time : Int) : Diagnostic :=
  .unattributed .error "renderer exited successfully but produced no output" time

/-- What came of a renderer that ended by itself. -/
def classify (status : ExitStatus) (page : ByteArray) (log : List Diagnostic) (time : Int) :
    Outcome × List Diagnostic :=
  if status.success then
    if page.size = 0 then (.failed (some 0), log ++ [noOutputDiagnostic time])
    else (.success page, log)
  else (.failed (status.code?.map Int.ofNat), log)

/-- The time at which a renderer has ended, or at which nobody waits for it any more. -/
def reaped (course : Course) (since grace : Nat) : Nat :=
  match course.exit with
  | some (time, _) => min (max time since) (since + grace)
  | none => since + grace

/-- The course of a child that is asked to end and then ended, and when that is over. -/
def terminated (child : Child) (time grace : Nat) : Course × Nat :=
  let asked := child [(time, .terminate)]
  let kill := reaped asked time grace
  let course := child [(time, .terminate), (kill, .kill)]
  (course, reaped course kill grace)

/-- The course of a child that is ended at once, and when its log is no longer waited
for. -/
def killed (child : Child) (time grace : Nat) : Course × Nat :=
  let course := child [(time, .kill)]
  (course, reaped course time grace + grace)

/-- What came of a run: the outcome with its log, the diagnostics in the order in which
they arrived, and the files that the renderer left. -/
structure Run where
  outcome : Outcome
  log : List Diagnostic
  arrived : List Diagnostic
  tree : Tree

/-- The run of a child. -/
def watch (config : Config.Renderer) (child : Child) (source : String) (time : Int)
    (cancel : Option Nat) : Run :=
  let grace := micros config.grace
  let course := child []
  match ending course cancel (micros config.timeout) with
  | .cancelled at? =>
    let (course, finish) := terminated child at? grace
    ⟨.cancelled, [], logAt source time course finish, course.tree⟩
  | .timedOut at? =>
    let (course, finish) := killed child at? grace
    let log := logAt source time course finish
    ⟨.failed none, log ++ [timeoutDiagnostic config time], log, course.tree⟩
  | .finished status =>
    let log := readLog source time course.errors true
    match status with
    | .error fault => ⟨.failed none, [(RenderFault.wait fault).diagnostic time], log, course.tree⟩
    | .ok status =>
      let (outcome, full) := classify status (Course.joined course.output) log time
      ⟨outcome, full, log, course.tree⟩

/-- Remarks for the log of the program, which are printed only if more is wanted. -/
def remarks (generation pid : Nat) (outcome : Outcome)
    (status : Option (Except Fault ExitStatus)) : List String :=
  let subject := "generation " ++ toString generation
  (subject ++ " started (pid Some(" ++ toString pid ++ "))") ::
    match outcome, status with
    | .cancelled, _ => [subject ++ " cancelled"]
    | .failed (some 0), _ => []
    | .failed _, some (.ok status) => [subject ++ " failed: " ++ status.text]
    | .failed _, some (.error fault) => [subject ++ ": " ++ (RenderFault.wait fault).message]
    | _, _ => []

/-- What the wait for a renderer has told that ended by itself in time. -/
def statusOf (config : Config.Renderer) (child : Child) (cancel : Option Nat) :
    Option (Except Fault ExitStatus) :=
  match ending (child []) cancel (micros config.timeout) with
  | .finished status => some status
  | _ => none

end Rendering

/-- The answer to a request, with what a listener hears on the way, remarks, and the
machine afterwards. -/
structure Rendered where
  result : RenderResult
  live : List LiveDiagnostic
  remarks : List String
  machine : Machine

namespace Rendering

/-- The answer to a request that led to no run. -/
def failedResult (generation : Nat) (fault : RenderFault) (time : Int) : RenderResult :=
  ⟨generation, .failed none, [fault.diagnostic time]⟩

/-- Renders with an input that was prepared. -/
def renderPrepared (host : Host) (config : Config.Renderer) (request : Request)
    (cancel : Option Nat) (m : Machine) (input : Input) :
    Except RenderFault (Run × List String × Machine) := do
  let (program, leading) ← resolve m config.command
  match host.start m (invocation m request.document input program leading) with
  | .error fault => throw (.start program fault)
  | .ok started =>
    let run := watch config started.child input.argument m.time cancel
    let status := statusOf config started.child cancel
    return (run, remarks request.generation started.pid run.outcome status, m.withTree run.tree)

/-- Renders a request. The time of a cancellation counts from the start; a request that
was cancelled before is answered at once. -/
def render (host : Host) (config : Config.Renderer) (request : Request) (cancel : Option Nat)
    (m : Machine) : Rendered :=
  let generation := request.generation
  let refused (fault : RenderFault) (m : Machine) : Rendered :=
    ⟨failedResult generation fault m.time, [],
      ["generation " ++ toString generation ++ ": " ++ fault.message], m⟩
  if cancel = some 0 then ⟨⟨generation, .cancelled, []⟩, [], [], m⟩
  else
    match Input.prepare config.input request.document m with
    | (.error fault, m) => refused fault m
    | (.ok input, m) =>
      match renderPrepared host config request cancel m input with
      | .error fault => refused fault (input.discard m)
      | .ok (run, remarks, m) =>
        ⟨⟨generation, run.outcome, run.log⟩, run.arrived.map fun d => ⟨generation, d⟩, remarks,
          input.discard m⟩

end Rendering

end SongPreview
