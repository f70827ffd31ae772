import SongPreview.Shell.Expansion
import SongPreview.Shell.Tools

/-!
# Launching programs

A program is found by a word and takes over a process. A file that names an interpreter
in its first line is given to that one. A script has a process of its own, which ends
with what was set for its end and outlives no background process.
-/

namespace SongPreview.Shell

/-- The result of a part of the work, which goes on in any case. -/
def attempt {α : Type} (work : Work α) : Work (Except Stop α) := fun s =>
  let (result, s) := work s
  (.ok result, s)

/-- Goes on with a result. -/
def conclude {α : Type} (result : Except Stop α) : Work α := fun s => (result, s)

/-! ## Redirection -/

/-- What is wrong with a redirection. -/
def redirectionFault (verb path : String) (fault : Fault) : String :=
  "cannot " ++ verb ++ " " ++ path ++ ": " ++
    match fault with
    | .notFound => if verb = "open" then "No such file" else "Directory nonexistent"
    | _ => fault.words

/-- Leads a number elsewhere, or tells what is wrong. -/
def redirectOne (run : Runner) (line : Nat) (r : Redirect) : Work (Option String) := do
  let opened (verb path : String) (result : Except Fault Handle) : Work (Option String) :=
    match result with
    | .ok handle => do
      setHandle r.fd handle
      return none
    | .error fault => return some (redirectionFault verb path fault)
  match r.target with
  | .read path =>
    let path ← textOf run line path
    opened "open" path (← openToRead path)
  | .write path =>
    let path ← textOf run line path
    opened "create" path (← openToWrite path false)
  | .append path =>
    let path ← textOf run line path
    opened "create" path (← openToWrite path true)
  | .text body =>
    let text ← textOf run line body
    setHandle r.fd (.stream (← newStream { unread := [(0, text)], ofFile := true }))
    return none
  | .same number =>
    let text ← textOf run line number
    if text = "-" then
      change fun p => { p with handles := p.handles.filter (·.1 ≠ r.fd) }
      return none
    else
      match (← decimal? text |>.mapM handle?).join with
      | some handle =>
        setHandle r.fd handle
        return none
      | none => return some (text ++ ": Bad file descriptor")

/-- Leads numbers elsewhere, one after the other, or tells what is wrong. -/
def redirect (run : Runner) (line : Nat) : List Redirect → Work (Option String)
  | [] => return none
  | r :: rest => do
    match ← redirectOne run line r with
    | some text => return some text
    | none => redirect run line rest

/-! ## Processes of scripts -/

/-- Works through a text for a signal or an end. The status stays. -/
def runTrap (run : Runner) (text : String) : Work Unit := do
  match parse? text with
  | none => pure ()
  | some script =>
    let status := (← self).status
    let _ ← run {} script
    change fun p => { p with status }

/-- Works through the background processes of the process. The number bounds them. -/
def runJobs (run : Runner) : Nat → Work Unit
  | 0 => pure ()
  | bound + 1 => do
    let s ← get
    match s.jobs.find? fun job => job.owner = s.process.pid with
    | none => pure ()
    | some job =>
      set { s with jobs := s.jobs.filter fun other => other.process.pid ≠ job.process.pid }
      let ending ← workThrough job.process (run { last := true } (.subshell job.body))
      modify fun s => { s with finished := (s.process.pid, ending) :: s.finished }
      runJobs run bound

/-- How many background processes a process has at most. -/
def manyJobs : Nat := 1000

/-- A process that works through a script: it does at its end what was set for it, and
its background processes go on. -/
def asScript (run : Runner) (body : Work Nat) : Work Nat := do
  let result ← attempt body
  let result : Except Stop Nat ←
    match result with
    | .error (.ended (.signalled _)) | .error .stuck => pure result
    | _ => do
      let status := (← self).status
      let code := match result with
        | .ok code | .error (.ended (.exited code)) => code
        | _ => status
      match (← self).traps.lookup 0 with
      | none => pure (.ok code)
      | some text =>
        change fun p => { p with status := code, traps := p.traps.filter (·.1 ≠ 0) }
        attempt (do
          runTrap run text
          return code)
  runJobs run manyJobs
  conclude result

/-- Takes over the process for another program: only exported variables and ignored
signals stay. -/
def takeOver : Work Unit :=
  change fun p => { p with
    bindings := p.bindings.filter fun v => v.2.exported
    functions := []
    traps := p.traps.filter fun trap => trap.2 = "" ∧ trap.1 ≠ 0
    pending := []
    status := 0
    lastJob := 0
    strict := false }

/-- The letters of options that change nothing here. -/
def otherLetters : List Char := "fIimnsvxVEabpulo".toList

/-- The options of a script program: whether the script is an argument, whether a failure
ends it, and the other arguments. A letter that is no option is told. -/
def scriptOptions (command strict : Bool) : List String → Except Char (Bool × Bool × List String)
  | w :: rest =>
    match w.toList with
    | ['-', '-'] => .ok (command, strict, rest)
    | '-' :: c :: letters =>
      match (c :: letters).find? fun c => c ∉ 'c' :: 'e' :: otherLetters with
      | some c => .error c
      | none =>
        scriptOptions (command || 'c' ∈ c :: letters) (strict || 'e' ∈ c :: letters) rest
    | _ => .ok (command, strict, w :: rest)
  | [] => .ok (command, strict, [])

/-- Whether a quote in a text is not closed. -/
def quoteOpen (text : String) : Bool :=
  (text.foldl (fun (acc : Option Char × Bool) c =>
    match acc with
    | (quote, true) => (quote, false)
    | (some '\'', _) => (if c = '\'' then none else some '\'', false)
    | (quote, _) =>
      if c = '\\' then (quote, true)
      else if quote.isSome then (if c = '"' then none else quote, false)
      else (if c = '\'' ∨ c = '"' then some c else none, false)) (none, false)).1.isSome

/-- What is wrong with a text that is no script. -/
def syntaxFault (text : String) : String :=
  "Syntax error: " ++
    if quoteOpen text then "Unterminated quoted string" else "end of file unexpected"

/-- Works through the text of a script in the process. -/
def runText (run : Runner) (manner : Manner) (text : String) : Work Nat := do
  match parse? text with
  | some script => run manner script
  | none => giveUp (text.toList.count '\n' + 1) (syntaxFault text)

/-- The program that works through scripts. -/
def script (run : Runner) : Tool := fun name arguments => do
  change fun p => { p with scriptPid := p.pid, name, arguments := [] }
  match scriptOptions false false arguments with
  | .error c => giveUp 0 ("Illegal option -" ++ String.ofList [c])
  | .ok (command, strict, rest) =>
  change fun p => { p with strict }
  if command then
    match rest with
    | [] => giveUp 0 "-c requires an argument"
    | text :: rest =>
      change fun p => { p with name := rest.headD name, arguments := rest.drop 1 }
      asScript run (runText run { last := !text.endsWith "\n" } text)
  else
    match rest with
    | [] => asScript run (do runText run {} (← readAll 0))
    | file :: rest =>
      match ← openToRead file with
      | .error fault => giveUp 0 (redirectionFault "open" file fault)
      | .ok handle =>
        change fun p => { p with name := file, arguments := rest }
        setHandle fileNumber handle
        let text ← readAll fileNumber
        change fun p => { p with handles := p.handles.filter (·.1 ≠ fileNumber) }
        asScript run (runText run {} text)

/-! ## Programs -/

/-- What takes over a process: a program of the system, its name and its arguments. -/
structure Launch where
  tool : String
  name : String
  arguments : List String
  deriving DecidableEq, Repr

/-- The interpreter that the first line of a file names, with its argument. -/
def interpreter? (content : String) : Option (String × List String) :=
  match content.toList with
  | '#' :: '!' :: rest =>
    let line := (rest.takeWhile (· ≠ '\n')).dropWhile Fields.isSpace
    let path := line.takeWhile fun c => !Fields.isSpace c
    let argument := (line.drop path.length).dropWhile Fields.isSpace
    let argument := (argument.reverse.dropWhile Fields.isSpace).reverse
    if path = [] then none
    else some (String.ofList path, if argument = [] then [] else [String.ofList argument])
  | _ => none

/-- What a path launches. The number bounds how often an interpreter is a script. -/
def Launch.ofPath (m : Machine) : Nat → Path → String → List String → Except Fault Launch
  | 0, _, _, _ => .error .tooManyLinks
  | bound + 1, path, name, arguments => do
    match m.programFault path, ← m.find path with
    | some fault, _ => throw fault
    | none, (_, .tool tool) => return ⟨tool, name, arguments⟩
    | none, (_, .file content _) =>
      match interpreter? (ofBytes content) with
      | none => throw .notExecutable
      | some (interpreter, options) =>
        ofPath m bound ⟨cooked interpreter⟩ interpreter (options ++ raw path.text :: arguments)
    | none, _ => throw .permission

/-- How often an interpreter is a script at most. -/
def interpreterDepth : Nat := 4

/-- The machine with the directories of programs that a variable of the process names. -/
def searching : Work Machine := do
  let m ← machine
  let dirs := (variableText (← self) "PATH").splitOn ":"
  return { m with searchPath := dirs.map fun dir => ⟨cooked dir⟩ }

/-- What a word launches. -/
def launchOf (word : String) (arguments : List String) : Work (Except Fault Launch) := do
  let m ← searching
  return (do
    let path ← m.programFor (cooked word)
    Launch.ofPath m interpreterDepth path word arguments)

/-- What a word launches when a script names it. A file without an interpreter is a
script itself. -/
def launchFromScript (word : String) (arguments : List String) : Work (Except Fault Launch) := do
  match ← launchOf word arguments with
  | .error .notExecutable =>
    match (← searching).programFor (cooked word) with
    | .ok path => return .ok ⟨"sh", "sh", raw path.text :: arguments⟩
    | .error fault => return .error fault
  | result => return result

/-- What is printed of the environment. -/
def environmentText (p : Process) : String :=
  String.join ((p.bindings.reverse.filter fun v => v.2.exported).map fun (name, v) =>
    name ++ "=" ++ v.value ++ "\n")

/-- The assignments at the front of some words, and the others. -/
def leadingAssignments : List String → List (String × String) × List String
  | w :: rest =>
    let (name, value) := splitAtChar '=' w.toList
    if '=' ∈ w.toList ∧ name ≠ [] then
      let (more, words) := leadingAssignments rest
      ((String.ofList name, String.ofList value) :: more, words)
    else ([], w :: rest)
  | [] => ([], [])

/-- Puts variables into the environment. -/
def exportAll (assignments : List (String × String)) : Work Unit :=
  assignments.forM fun (name, value) =>
    change fun p => { p with bindings :=
      (name, ⟨value, true⟩) :: p.bindings.filter fun v => v.1 ≠ name }

section Launchers

variable (next : Launch → Work Nat)

/-- Launches the program of some words in the place of this one. -/
def launchInstead (words : List String) (fail : Fault → Work Nat) : Work Nat := do
  match words with
  | [] => return 0
  | word :: arguments =>
    match ← launchOf word arguments with
    | .ok launch => next launch
    | .error fault => fail fault

/-- Complains that no program was found, or that it could not be launched. -/
def launcherFails (name text : String) (fault : Fault) : Work Nat :=
  complaint name (text ++ ": " ++ fault.words) (if fault = .notFound then 127 else 126)

/-- A program that launches another one in a changed environment, or prints what that is. -/
def envLauncher (name : String) (arguments : List String) : Work Nat :=
  withOptions ⟨['i'], ['u'], [("ignore-environment", 'i'), ("unset", 'u')], true⟩ name arguments
    fun given => do
      if given.has 'i' then change fun p => { p with bindings := [] }
      let (assignments, words) := leadingAssignments given.words
      exportAll assignments
      if words = [] then
        tell name (environmentText (← self))
        return 0
      else
        launchInstead next words (launcherFails name ("'" ++ words.headD "" ++ "'"))

/-- A program that launches another one in a session of its own. -/
def setsidLauncher (name : String) (arguments : List String) : Work Nat :=
  withOptions ⟨"cfw".toList, [], [("ctty", 'c'), ("fork", 'f'), ("wait", 'w')], true⟩ name
    arguments fun given => do
      if given.words = [] then misuse name "no command specified" 1
      else
        let body : Work Nat := launchInstead next given.words
          (launcherFails name ("failed to execute " ++ given.words.headD ""))
        let apart (p : Process) : Process := { p with inGroup := false, signals := [] }
        if (← self).leader ∨ given.has 'f' then
          let child ← newProcess
          let ending ← workThrough (apart child) body
          if given.has 'w' then await ending else return 0
        else
          change apart
          body

end Launchers

/-- Lets a program take over the process. The number bounds how often a program launches
another in its place. -/
def launch (run : Runner) : Nat → Launch → Work Nat
  | 0, _ => return 126
  | bound + 1, ⟨tool, name, arguments⟩ => do
    takeOver
    spend startTime
    match tool with
    | "sh" => script run name arguments
    | "env" => envLauncher (launch run bound) name arguments
    | "setsid" => setsidLauncher (launch run bound) name arguments
    | _ =>
      match tools.lookup tool with
      | some tool => tool name arguments
      | none => complaint name "not available" 126

/-- How often a program launches another in its place at most. -/
def launchDepth : Nat := 10

end SongPreview.Shell
