import SongPreview.Machine

/-!
# Child programs

A program that was started writes to two pipes, changes files and ends. What it does
depends on the signals that its group is sent, and nothing else is known of it. A host
is what starts programs. Times are in microseconds after the start.
-/

namespace SongPreview

/-- How a program ended. -/
inductive ExitStatus where
  | exited (code : Nat)
  | signalled (signal : Nat)
  deriving DecidableEq, Repr

namespace ExitStatus

/-- Whether the program ended well. -/
def success (s : ExitStatus) : Bool :=
  s == exited 0

/-- The exit code of a program that ended by itself. -/
def code? : ExitStatus → Option Nat
  | exited code => some code
  | signalled _ => none

/-- The names of signals, from the first on. -/
def signalNames : List String :=
  ["SIGHUP", "SIGINT", "SIGQUIT", "SIGILL", "SIGTRAP", "SIGABRT", "SIGBUS", "SIGFPE", "SIGKILL",
    "SIGUSR1", "SIGSEGV", "SIGUSR2", "SIGPIPE", "SIGALRM", "SIGTERM", "SIGSTKFLT", "SIGCHLD",
    "SIGCONT", "SIGSTOP", "SIGTSTP", "SIGTTIN", "SIGTTOU", "SIGURG", "SIGXCPU", "SIGXFSZ",
    "SIGVTALRM", "SIGPROF", "SIGWINCH", "SIGIO", "SIGPWR", "SIGSYS"]

/-- The wording of a status. -/
def text : ExitStatus → String
  | exited code => "exit status: " ++ toString code
  | signalled signal =>
    "signal: " ++ toString signal ++
      ((signalNames[signal - 1]?).elim "" fun name => " (" ++ name ++ ")")

end ExitStatus

/-- The signals that a group of programs is sent. -/
inductive Signal where
  /-- The programs are asked to end. -/
  | terminate
  /-- The programs are ended. -/
  | kill
  deriving DecidableEq, Repr

/-- Bytes that were written at once. -/
structure Chunk where
  time : Nat
  bytes : ByteArray
  deriving DecidableEq

/-- What a program did, in the order of time. -/
structure Course where
  /-- What was written to the standard output. -/
  output : List Chunk
  /-- What was written to the error output. -/
  errors : List Chunk
  /-- When the wait for the program's end was over, if it ever was, and how the program
  ended, or why that could not be learned. -/
  exit : Option (Nat × Except Fault ExitStatus)
  /-- When nobody was left to write to the standard output, if ever. -/
  outputEnd : Option Nat
  /-- When nobody was left to write to the error output, if ever. -/
  errorsEnd : Option Nat
  /-- The files as the program and its helpers left them. -/
  tree : Tree

namespace Course

/-- The bytes of some chunks. -/
def joined (chunks : List Chunk) : ByteArray :=
  chunks.foldl (fun all c => all ++ c.bytes) .empty

/-- The chunks up to a time. -/
def upTo (time : Nat) (chunks : List Chunk) : List Chunk :=
  chunks.filter fun c => c.time ≤ time

/-- When the wait for the program is over and both of its pipes are closed, and what the
wait has told. -/
def finished? (c : Course) : Option (Nat × Except Fault ExitStatus) := do
  let (time, status) ← c.exit
  return (max time (max (← c.outputEnd) (← c.errorsEnd)), status)

end Course

/-- A started program: what it does under the signals that its group is sent. -/
abbrev Child := List (Nat × Signal) → Course

/-- What is started: a program with its arguments, what it finds on its standard input,
and the directory it works in if that is not the starter's own. -/
structure Invocation where
  program : Path
  /-- The name that the program is called by. -/
  name : String
  arguments : List String
  input : Option String
  workDir : Option Path
  deriving DecidableEq, Repr

/-- A program that was started, and its number. -/
structure Started where
  pid : Nat
  child : Child

/-- What starts programs on a machine. -/
structure Host where
  start : Machine → Invocation → Except Fault Started

namespace Machine

/-- Whether a path leads to a program. -/
def isProgram (m : Machine) (p : Path) : Bool :=
  match m.find p with
  | .ok (_, .file _ true) | .ok (_, .tool _) => true
  | _ => false

/-- Whether a word names a program by its path. -/
def isPathWord (word : String) : Bool :=
  '/' ∈ word.toList

/-- The absolute path of a path's names, without the dot at its front. -/
def absolute (m : Machine) (p : Path) : Path :=
  if p.isAbsolute then p
  else
    p.components.foldl (fun (q : Path) c =>
      match c with
      | .name name => q.join ⟨name⟩
      | .up => q.join ⟨".."⟩
      | _ => q) m.workPath

/-- The program that a word names. -/
def findProgram (m : Machine) (word : String) : Option Path :=
  let candidates :=
    if isPathWord word then [m.absolute ⟨word⟩]
    else if word = "" then []
    else m.searchPath.map fun dir => dir.join ⟨word⟩
  candidates.find? m.isProgram

/-- Why a path does not lead to a program. -/
def programFault (m : Machine) (p : Path) : Option Fault :=
  match m.find p with
  | .error fault => some fault
  | .ok (_, .file _ true) | .ok (_, .tool _) => none
  | .ok _ => some .permission

/-- The program to start for a word. A word without a slash is looked for in the
directories of programs. -/
def programFor (m : Machine) (word : String) : Except Fault Path :=
  if '\x00' ∈ word.toList then .error .nulInArgument
  else if isPathWord word then
    match m.programFault ⟨word⟩ with
    | none => .ok ⟨word⟩
    | some fault => .error fault
  else if word = "" then .error .notFound
  else
    let candidates := m.searchPath.map fun dir => dir.join ⟨word⟩
    match candidates.find? fun p => (m.programFault p).isNone with
    | some p => .ok p
    | none =>
      if candidates.any fun p => m.programFault p == some .permission then .error .permission
      else .error .notFound

end Machine

end SongPreview
