import SongPreview.Child
import SongPreview.Shell.Bytes
import SongPreview.Shell.Syntax

/-!
# Processes

A process works for some time, reads and writes by numbered handles, and ends with a
status or by a signal. The processes of a program are worked through one after the
other, each on its own time, so what one writes carries the time at which it was
written. Times are in microseconds after the start of the program.
-/

namespace SongPreview.Shell

/-- A time that nothing reaches. -/
def never : Nat := 1000000000000000

/-- What a number stands for when a process reads or writes by it. -/
inductive Handle where
  | stream (id : Nat)
  /-- The end of a file. -/
  | file (place : Location)
  | device (device : Device)
  deriving DecidableEq, Repr

/-- Bytes on their way from one process to another, or out of a file. -/
structure Stream where
  /-- What was written, the latest first. -/
  written : List (Nat × String) := []
  /-- What is there to be read, the earliest first. -/
  unread : List (Nat × String) := []
  /-- When the last writer is gone. -/
  closed : Nat := 0
  /-- When the reader is gone, if it is known to go. -/
  gone : Option Nat := none
  /-- Whether these are the bytes of a file. -/
  ofFile : Bool := false

/-- A variable of a process. -/
structure Variable where
  value : String
  exported : Bool
  deriving DecidableEq, Repr

/-- A process. -/
structure Process where
  pid : Nat := 0
  /-- The number of the process whose script this is a part of. -/
  scriptPid : Nat := 0
  parent : Nat := 0
  /-- Whether the process leads the group of the program. -/
  leader : Bool := false
  /-- Whether signals for the group reach the process. -/
  inGroup : Bool := true
  /-- The name that the process was called by. -/
  name : String := ""
  arguments : List String := []
  bindings : List (String × Variable) := []
  functions : List (String × Script) := []
  /-- What is done on a signal, or at the end for zero. Nothing at all ignores it. -/
  traps : List (Nat × String) := []
  /-- The signals that are still to come, the earliest first. -/
  signals : List (Nat × Nat) := []
  /-- The signals that have come and have a script. -/
  pending : List Nat := []
  workDir : Location := []
  handles : List (Nat × Handle) := []
  time : Nat := 0
  /-- The status of the last command. -/
  status : Nat := 0
  /-- The number of the last background process. -/
  lastJob : Nat := 0
  /-- Whether a failure ends the process. -/
  strict : Bool := false
  /-- The scripts that were given as functions on the way here. -/
  calls : Nat := 0

/-- A background process that was not worked through yet. -/
structure Job where
  owner : Nat
  process : Process
  body : Script

/-- How a process ended: when, and with what status if it ever did. -/
structure Ending where
  pid : Nat
  time : Nat
  status : Option ExitStatus
  deriving DecidableEq, Repr

/-- The process at work and what it shares with the others. -/
structure Sim where
  process : Process
  machine : Machine
  streams : List (Nat × Stream) := []
  nextStream : Nat := 0
  nextPid : Nat := 0
  jobs : List Job := []
  /-- The background processes that are over, with their owners. -/
  finished : List (Nat × Ending) := []
  /-- Signals on their way: the receiver, the time and the signal. -/
  sent : List (Nat × Nat × Nat) := []
  /-- The signals that the group is sent from outside. -/
  schedule : List (Nat × Nat) := []
  /-- The processes of the group. -/
  members : List Nat := []

/-- How a process, or a part of it, stops before it comes to its end. -/
inductive Stop where
  | ended (status : ExitStatus)
  /-- It goes on for ever. -/
  | stuck
  | leaveLoop (levels : Nat)
  | nextRound (levels : Nat)
  | returned
  deriving DecidableEq, Repr

/-- A part of the work of a process. -/
abbrev Work := ExceptT Stop (StateM Sim)

/-- The process at work. -/
def self : Work Process := return (← get).process

/-- Changes the process at work. -/
def change (f : Process → Process) : Work Unit :=
  modify fun s => { s with process := f s.process }

/-- The machine as the process finds it. -/
def machine : Work Machine := do
  let s ← get
  return { s.machine with workDir := s.process.workDir }

/-- The machine with other files. -/
def setTree (tree : Tree) : Work Unit :=
  modify fun s => { s with machine := s.machine.withTree tree }

/-- A change of the files. -/
def act (action : Action Unit) : Work (Except Fault Unit) := do
  let (result, m) := action (← machine)
  setTree m.tree
  return result

/-! ## Time and signals -/

/-- The signals that do nothing unless they have a script. -/
def harmless : List Nat := [17, 18, 23, 28]

/-- The signals that stop a process until it is ended. -/
def stopping : List Nat := [19, 20, 21, 22]

/-- Whether a signal stops a process. -/
def Process.stopsBy (p : Process) (signal : Nat) : Bool :=
  signal ∈ stopping && (signal = 19 || (p.traps.lookup signal).isNone)

/-- Whether a signal ends a process. -/
def Process.endsBy (p : Process) (signal : Nat) : Bool :=
  signal = 9 ||
    ((p.traps.lookup signal).isNone && signal ∉ harmless && signal ∉ stopping && signal ≠ 0)

/-- Whether a signal has a script. -/
def Process.handles? (p : Process) (signal : Nat) : Bool :=
  signal ≠ 9 && ((p.traps.lookup signal).any fun script => script ≠ "")

/-- A signal put among others by its time. -/
def putSignal (signal : Nat × Nat) : List (Nat × Nat) → List (Nat × Nat)
  | [] => [signal]
  | other :: rest =>
    if signal.1 < other.1 then signal :: other :: rest else other :: putSignal signal rest

/-- Takes the signals that were sent to the process. -/
def collect : Work Unit :=
  modify fun s =>
    let p := s.process
    let (mine, others) := s.sent.partition fun sent => sent.1 = p.pid
    if mine.isEmpty then s
    else
      let signals := mine.foldl (fun all sent => putSignal sent.2 all) p.signals
      { s with sent := others, process := { p with signals } }

/-- Goes on to a time, unless a signal ends the process before. -/
def waitUntil (time : Nat) : Work Unit := do
  collect
  let p ← self
  let stopping := p.signals.find? fun signal => p.stopsBy signal.2
  let stopped := stopping.any fun signal => signal.1 ≤ time
  let time := if stopped then never else time
  let (due, later) := p.signals.span fun signal => signal.1 ≤ time
  let ends (signal : Nat) : Bool := if stopped then signal = 9 else p.endsBy signal
  match due.find? fun signal => ends signal.2 with
  | some (at?, signal) =>
    change fun p => { p with time := max p.time at? }
    throw (.ended (.signalled signal))
  | none =>
    let scripts := (due.map Prod.snd).filter p.handles?
    change fun p =>
      { p with time := max p.time time, signals := later, pending := p.pending ++ scripts }
    if never ≤ time then throw .stuck

/-- Goes on for some time. -/
def spend (duration : Nat) : Work Unit := do
  waitUntil ((← self).time + duration)

/-- How long a step of a script takes. -/
def stepTime : Nat := 2

/-- How long the start of a program takes. -/
def startTime : Nat := 1000

/-- Sends a signal to a process. -/
def send (pid signal : Nat) : Work Unit := do
  let time := (← self).time
  modify fun s => { s with sent := s.sent ++ [(pid, time, signal)] }

/-! ## Reading and writing -/

/-- The stream of a number. -/
def stream (id : Nat) : Work Stream := do
  return ((← get).streams.lookup id).getD {}

/-- Changes a stream. -/
def changeStream (id : Nat) (f : Stream → Stream) : Work Unit :=
  modify fun s =>
    { s with streams := s.streams.map fun e => if e.1 = id then (id, f e.2) else e }

/-- A new stream. -/
def newStream (stream : Stream) : Work Nat := do
  let s ← get
  set { s with streams := (s.nextStream, stream) :: s.streams, nextStream := s.nextStream + 1 }
  return s.nextStream

/-- What a number stands for. -/
def handle? (number : Nat) : Work (Option Handle) := do
  return (← self).handles.lookup number

/-- Why nothing could be written. -/
inductive WriteFault where
  | badNumber
  | noReader
  deriving DecidableEq, Repr

/-- Writes a text by a number. A process that writes to nobody is ended by a signal. -/
def write (number : Nat) (text : String) : Work (Except WriteFault Unit) := do
  match ← handle? number with
  | none => return .error .badNumber
  | some (.device _) => return .ok ()
  | some (.file place) =>
    if text ≠ "" then
      let tree := (← machine).tree
      match tree.get? place with
      | some (.file content executable) =>
        setTree (tree.put place (.file (content ++ toBytes text) executable))
      | _ => pure ()
    return .ok ()
  | some (.stream id) =>
    if text = "" then return .ok ()
    let time := (← self).time
    if (← stream id).gone.any (· < time) then
      send (← self).pid 13
      waitUntil time
      return .error .noReader
    else
      changeStream id fun s => { s with written := (time, text) :: s.written }
      return .ok ()

/-- Writes a text to the standard output. -/
def out (text : String) : Work Unit := do
  let _ ← write 1 text

/-- Writes a text to the error output. -/
def complain (text : String) : Work Unit := do
  let _ ← write 2 text

/-- What reading has to go on with: the pieces in the order of time, when they end, and
whether zeros follow without an end. -/
structure Supply where
  pieces : List (Nat × String)
  closed : Nat
  zeros : Bool

/-- How many zeros are taken for zeros without an end. -/
def manyZeros : Nat := 262144

/-- What there is to read by a number. -/
def supply? (number : Nat) : Work (Option Supply) := do
  match ← handle? number with
  | none | some (.file _) => return none
  | some (.device .null) => return some ⟨[], 0, false⟩
  | some (.device .zero) => return some ⟨[(0, "".pushn '\x00' manyZeros)], never, true⟩
  | some (.stream id) =>
    let s ← stream id
    return some ⟨s.unread, s.closed, false⟩

/-- Leaves something else to be read by a number. -/
def leave (number : Nat) (pieces : List (Nat × String)) : Work Unit := do
  match ← handle? number with
  | some (.stream id) => changeStream id fun s => { s with unread := pieces }
  | _ => pure ()

/-- Reads all there is by a number, piece by piece as it comes. Zeros without an end are
passed on as long as somebody reads what comes of them. -/
def readPieces (number : Nat) (use : String → Work Unit) : Work Unit := do
  match ← supply? number with
  | none => pure ()
  | some supply =>
    leave number []
    supply.pieces.forM fun (time, text) => do
      waitUntil time
      use text
    if supply.zeros then
      match ← handle? 1 with
      | some (.stream id) => (← stream id).gone.forM fun time => do
        waitUntil (time + 1)
        use "\x00"
      | _ => pure ()
    waitUntil supply.closed

/-- Reads all there is by a number. -/
def readAll (number : Nat) : Work String := do
  match ← supply? number with
  | none => return ""
  | some supply =>
    leave number []
    waitUntil (supply.pieces.foldl (fun time piece => max time piece.1) supply.closed)
    return String.join (supply.pieces.map Prod.snd)

/-- The front of what there is to read. -/
structure Front where
  text : String := ""
  /-- When the last of it came. -/
  time : Nat := 0
  /-- Whether it is all that was wanted. -/
  enough : Bool := false
  /-- What follows. -/
  rest : List (Nat × String) := []

/-- The front of some pieces. What is wanted is told by a function: how many characters
of a text, or all of it and then more. -/
def Front.ofPieces {α : Type} (wants : α → String → α × Option Nat) (state : α) (front : Front) :
    List (Nat × String) → Front
  | [] => front
  | (time, text) :: rest =>
    match wants state text with
    | (state, none) => ofPieces wants state { front with text := front.text ++ text, time } rest
    | (_, some count) =>
      { text := front.text ++ (text.take count).toString
        time
        enough := true
        rest := if count < text.length then (time, (text.drop count).toString) :: rest else rest }

/-- Reads the front of what there is by a number. -/
def readFront {α : Type} (number : Nat) (wants : α → String → α × Option Nat) (start : α) :
    Work String := do
  match ← supply? number with
  | none => return ""
  | some supply =>
    let front := Front.ofPieces wants start {} supply.pieces
    leave number front.rest
    waitUntil (if front.enough then front.time else max front.time supply.closed)
    return front.text

/-- Reads some bytes by a number. -/
def readBytes (number count : Nat) : Work String := do
  if count = 0 then return ""
  readFront number (fun wanted text =>
    if wanted ≤ text.length then (0, some wanted) else (wanted - text.length, none)) count

/-- How many characters of a text hold a number of lines, or how many lines are
missing. -/
def lineEnd? (lines : Nat) (text : String) : Nat × Option Nat :=
  let (missing, used) := text.foldl (fun (acc : Nat × Nat) c =>
    if acc.1 = 0 then acc else (if c = '\n' then acc.1 - 1 else acc.1, acc.2 + 1)) (lines, 0)
  (missing, if missing = 0 then some used else none)

/-- Reads some lines by a number. -/
def readLines (number count : Nat) : Work String := do
  if count = 0 then return ""
  readFront number lineEnd? count

/-- The number of a path that names a handle. -/
def handlePath? (path : String) : Option Nat :=
  ["/dev/stdin", "/dev/stdout", "/dev/stderr", "/dev/fd/0", "/dev/fd/1", "/dev/fd/2",
    "/proc/self/fd/0", "/proc/self/fd/1", "/proc/self/fd/2"].idxOf? path |>.map (· % 3)

/-- Opens a file to read it. -/
def openToRead (path : String) : Work (Except Fault Handle) := do
  match handlePath? path with
  | some number => return (← handle? number).elim (.error .notFound) .ok
  | none =>
    match (← machine).find ⟨cooked path⟩ with
    | .error fault => return .error fault
    | .ok (_, .device device) => return .ok (.device device)
    | .ok (_, .directory) => return .error .isDirectory
    | .ok (_, .file content _) =>
      let pieces := if content.isEmpty then [] else [(0, ofBytes content)]
      return .ok (.stream (← newStream { unread := pieces, ofFile := true }))
    | .ok _ => return .ok (.device .null)

/-- Opens a file to write into it, at its end or in place of what it held. -/
def openToWrite (path : String) (atEnd : Bool) : Work (Except Fault Handle) := do
  match handlePath? path with
  | some number => return (← handle? number).elim (.error .notFound) .ok
  | none =>
    let m ← machine
    match m.find ⟨cooked path⟩, atEnd with
    | .ok (place, .file ..), true => return .ok (.file place)
    | _, _ =>
      match m.openEmpty ⟨cooked path⟩ with
      | .error fault => return .error fault
      | .ok (opened, m) =>
        setTree m.tree
        return .ok (opened.elim (.device .null) fun (place, _) => .file place)

/-- Opens a number. -/
def setHandle (number : Nat) (handle : Handle) : Work Unit :=
  change fun p => { p with handles := (number, handle) :: p.handles.filter (·.1 ≠ number) }

/-- Tells the streams that a process has closed at a time. -/
def closeHandles (time : Nat) (handles : List Handle) : Work Unit :=
  handles.forM fun
    | .stream id => changeStream id fun s => { s with closed := max s.closed time }
    | _ => pure ()

/-- Closes a number. -/
def closeHandle (number : Nat) : Work Unit := do
  let p ← self
  match p.handles.lookup number with
  | none => pure ()
  | some handle =>
    change fun p => { p with handles := p.handles.filter (·.1 ≠ number) }
    closeHandles p.time [handle]

/-! ## Processes that are started -/

/-- The status that a script sees. -/
def statusNumber : ExitStatus → Nat
  | .exited code => code
  | .signalled signal => 128 + signal

/-- How a part of the work of a process ended. -/
def endingOf (pid time : Nat) : Except Stop Nat → Ending
  | .ok code => ⟨pid, time, some (.exited code)⟩
  | .error (.ended status) => ⟨pid, time, some status⟩
  | .error .stuck => ⟨pid, never, none⟩
  | .error _ => ⟨pid, time, some (.exited 0)⟩

/-- Works through a process to its end. The process that starts it stays as it is. -/
def workThrough (process : Process) (body : Work Nat) : Work Ending := do
  let s ← get
  let (result, after) := body { s with process }
  let ending := endingOf process.pid after.process.time result
  set { after with process := s.process }
  closeHandles ending.time (after.process.handles.map Prod.snd)
  return ending

/-- A process that is started by the one at work. -/
def newProcess : Work Process := do
  let s ← get
  let p := s.process
  set { s with
    nextPid := s.nextPid + 1
    members := if p.inGroup then s.nextPid :: s.members else s.members }
  return { p with
    pid := s.nextPid
    parent := p.pid
    leader := false
    signals := if p.inGroup then s.schedule.filter fun signal => p.time ≤ signal.1 else []
    pending := []
    traps := p.traps.filter fun trap => trap.2 = "" ∧ trap.1 ≠ 0 }

/-- When a process is over, or never. -/
def Ending.finish (e : Ending) : Nat :=
  if e.status.isSome then e.time else never

/-- The status of a process as a script sees it. -/
def Ending.number (e : Ending) : Nat :=
  (e.status.map statusNumber).getD 0

/-- Waits for a process, and tells its status. -/
def await (ending : Ending) : Work Nat := do
  waitUntil ending.finish
  return ending.number

/-- What is said about a process that was ended by a signal, unless it goes without
saying. -/
def obituary? (signal : Nat) : Option String :=
  [(1, "Hangup"), (3, "Quit"), (4, "Illegal instruction"), (5, "Trace/breakpoint trap"),
    (6, "Aborted"), (7, "Bus error"), (8, "Floating point exception"), (9, "Killed"),
    (10, "User defined signal 1"), (11, "Segmentation fault"), (12, "User defined signal 2"),
    (14, "Alarm clock"), (15, "Terminated")].lookup signal

/-- Says how a process was ended, if that was by a signal. -/
def mourn (status : Option ExitStatus) : Work Unit := do
  match status with
  | some (.signalled signal) => (obituary? signal).forM fun text => complain (text ++ "\n")
  | _ => pure ()

/-- Waits for a process that a script has started, and tells its status. -/
def awaitCommand (ending : Ending) : Work Nat := do
  let code ← await ending
  mourn ending.status
  return code

/-- Ends the process. -/
def endWith {α : Type} (code : Nat) : Work α :=
  throw (.ended (.exited (code % 256)))

end SongPreview.Shell
