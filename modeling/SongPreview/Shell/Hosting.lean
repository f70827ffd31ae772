import SongPreview.Shell.Running

/-!
# A host of scripts

A host that knows the programs of the system and works through scripts. Everything that
a program does, and when, is determined by its arguments, its input, the files and the
signals that its group is sent.
-/

namespace SongPreview.Shell

/-- The longest argument of a program, in bytes. -/
def argumentLimit : Nat := 131071

/-- The bytes that all arguments may take. -/
def argumentsLimit : Nat := 2000000

/-- Why some arguments cannot be passed to a program. -/
def argumentFault? (arguments : List String) : Option Fault :=
  if arguments.any fun a => '\x00' ∈ a.toList then some .nulInArgument
  else if (arguments.any fun a => argumentLimit < a.utf8ByteSize) ∨
      argumentsLimit < (arguments.map fun a => a.utf8ByteSize + 9).foldl (· + ·) 0 then
    some .tooManyArguments
  else none

/-- The number of the first process. -/
def firstPid : Nat := 4242

/-- The variables that a program finds. -/
def environment (m : Machine) : List (String × Variable) :=
  let dirs := ":".intercalate (m.searchPath.map Path.text)
  [("HOME", m.home.text), ("TMPDIR", m.tempDir.text), ("LC_ALL", "C"), ("TZ", "UTC"),
    ("PATH", dirs), ("PWD", m.workPath.text)].map fun (name, value) => (name, ⟨raw value, true⟩)

/-- The number of a signal. -/
def signalNumber : Signal → Nat
  | .terminate => 15
  | .kill => 9

/-- The first process before it does anything. -/
def firstProcess (m : Machine) (input : Option String) (signals : List (Nat × Nat)) : Process where
  pid := firstPid
  scriptPid := firstPid
  parent := firstPid - 1
  leader := true
  bindings := environment m
  signals := signals
  workDir := m.workDir
  handles :=
    [(0, if input.isSome then .stream 0 else .device .null), (1, .stream 1), (2, .stream 2)]

/-- The beginning of a program. -/
def firstSim (m : Machine) (input : Option String) (signals : List (Nat × Nat)) : Sim where
  process := firstProcess m input signals
  machine := m
  streams := [(2, {}), (1, {}), (0, { unread := (input.map fun text => (0, raw text)).toList })]
  nextStream := 3
  nextPid := firstPid + 1
  schedule := signals
  members := [firstPid]

/-- What was written to a stream, in the order of time. -/
def chunksOf (s : Stream) : List Chunk :=
  (s.written.reverse.mergeSort fun a b => a.1 ≤ b.1).map fun (time, text) => ⟨time, toBytes text⟩

/-- When a stream has no writer any more, if ever. -/
def endOf (s : Stream) : Option Nat :=
  if s.closed < never then some s.closed else none

/-- The course of a program under some signals. -/
def course (m : Machine) (found : Launch) (input : Option String) (signals : List (Nat × Nat)) :
    Course :=
  let start := firstSim m input signals
  let (result, after) :=
    (do
      let ending ← workThrough start.process (launch (runner scriptDepth) launchDepth found)
      return (ending, ← stream 1, ← stream 2) : Work (Ending × Stream × Stream)) start
  match result with
  | .error _ => ⟨[], [], none, none, none, m.tree⟩
  | .ok (ending, output, errors) =>
    { output := chunksOf output
      errors := chunksOf errors
      exit := ending.status.map fun status => (ending.time, .ok status)
      outputEnd := endOf output
      errorsEnd := endOf errors
      tree := after.machine.tree }

/-- Starts a program of the system or a script. -/
def start (m : Machine) (i : Invocation) : Except Fault Started := do
  match argumentFault? (i.name :: i.arguments) with
  | some fault => throw fault
  | none => pure ()
  let m ←
    match i.workDir with
    | none => pure m
    | some dir => do
      let (place, _) ← m.find dir
      pure { m with workDir := place }
  let found ← Launch.ofPath m interpreterDepth i.program (raw i.name) (i.arguments.map raw)
  return ⟨firstPid, fun signals =>
    course m found i.input (signals.map fun (time, signal) => (time, signalNumber signal))⟩

/-- The host that works through scripts. -/
def host : Host := ⟨start⟩

end SongPreview.Shell
