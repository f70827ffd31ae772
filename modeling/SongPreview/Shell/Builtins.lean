import SongPreview.Shell.Launching

/-!
# Commands of scripts

Some commands are carried out by the process of the script itself, since they change it
or are needed all the time.
-/

namespace SongPreview.Shell

/-- A command of scripts: what it does at a line with its arguments. -/
abbrev Builtin := Nat → List String → Work Nat

/-- The commands whose assignments stay and whose mistakes end the script. -/
def specialBuiltins : List String :=
  [":", ".", "break", "continue", "eval", "exec", "exit", "export", "readonly", "return", "set",
    "shift", "times", "trap", "unset"]

/-- Writes a text, or says that it could not be written. -/
def say (line : Nat) (name text : String) : Work Nat := do
  match ← write 1 text with
  | .ok () => return 0
  | .error _ =>
    scriptComplaint line (name ++ ": " ++ name ++ ": I/O error")
    return 1

/-- A number among the arguments of a command, or the script is given up. -/
def numberOr (line : Nat) (name : String) (missing : Nat) : List String → Work Nat
  | [] => return missing
  | w :: _ =>
    match decimal? w with
    | some n => return n
    | none => giveUp line (name ++ ": Illegal number: " ++ w)

/-! ## Output and conditions -/

/-- Shows its arguments. -/
def echoBuiltin : Builtin := fun line arguments =>
  let quiet := arguments.head? = some "-n"
  let text := Format.echoed .shell [] (if quiet then arguments.drop 1 else arguments)
  say line "echo" (if quiet ∧ text.endsWith "\n" then (text.dropEnd 1).toString else text)

/-- Shows its arguments in a format. -/
def printfBuiltin : Builtin := fun line arguments => do
  match if arguments.head? = some "--" then arguments.drop 1 else arguments with
  | [] =>
    scriptComplaint line "printf: usage: printf format [arg ...]"
    return 2
  | format :: rest =>
    if format.startsWith "-" ∧ format ≠ "-" ∧ arguments.head? ≠ some "--" then
      scriptComplaint line
        ("printf: Illegal option " ++ (format.take 2).toString)
      return 2
    else
      let result := Format.run .shell format rest
      let status ← say line "printf" result.text
      result.errors.forM fun text => scriptComplaint line ("printf: " ++ text)
      return if status = 0 then result.status else status

/-- Says whether a condition holds. -/
def testBuiltin (brackets : Bool) : Builtin := fun line words => do
  let name := if brackets then "[" else "test"
  let check (words : List String) : Work Nat := do
    let p ← self
    conditionStatus (p.name ++ ": " ++ toString line ++ ": " ++ name) true words
  if ¬ brackets then check words
  else if words.getLast? = some "]" then check words.dropLast
  else
    scriptComplaint line "[: missing ]"
    return 2

/-! ## Variables -/

/-- Splits a word such as `name=value`. -/
def assignmentOf (w : String) : String × Option String :=
  let (name, value) := splitAtChar '=' w.toList
  (String.ofList name, if '=' ∈ w.toList then some (String.ofList value) else none)

/-- Marks a variable for programs. -/
def exportOne (name : String) : Work Unit := do
  let value := (← valueOf name).getD ""
  change fun p => { p with bindings :=
    (name, ⟨value, true⟩) :: p.bindings.filter fun v => v.1 ≠ name }

/-- Sets variables, and marks them for programs if asked to. -/
def declareBuiltin (exported : Bool) : Builtin := fun _ words => do
  words.forM fun w => do
    let (name, value) := assignmentOf w
    value.forM (assign name)
    if exported then exportOne name
  return 0

/-- Takes variables away. -/
def unsetBuiltin : Builtin := fun _ words => do
  words.forM fun w => change fun p => { p with
    bindings := p.bindings.filter fun v => v.1 ≠ w
    functions := if words.head? = some "-f" then p.functions.filter fun f => f.1 ≠ w
      else p.functions }
  return 0

/-- Takes arguments away from the front. -/
def shiftBuiltin : Builtin := fun line words => do
  let n ← numberOr line "shift" 1 words
  if (← self).arguments.length < n then giveUp line "shift: can't shift that many"
  else
    change fun p => { p with arguments := p.arguments.drop n }
    return 0

/-- Sets options and arguments. -/
def setBuiltin : Builtin := fun _ words => do
  match words with
  | [] => return 0
  | w :: rest =>
    match w.toList with
    | ['-', '-'] => change fun p => { p with arguments := rest }
    | '-' :: letters =>
      if 'e' ∈ letters then change fun p => { p with strict := true }
      let rest := if 'o' ∈ letters then rest.drop 1 else rest
      if rest ≠ [] then
        change fun p => { p with arguments := if rest.head? = some "--" then rest.drop 1 else rest }
    | '+' :: letters => if 'e' ∈ letters then change fun p => { p with strict := false }
    | _ => change fun p => { p with arguments := words }
    return 0

/-- The fields of a line, of which the last one takes what is left. -/
def lineFields (separators : List Char) : Nat → List Char → List (List Char)
  | 0, _ => []
  | 1, s =>
    let s := s.dropWhile (· ∈ separators)
    [(s.reverse.dropWhile (· ∈ separators)).reverse]
  | n + 1, s =>
    let s := s.dropWhile (· ∈ separators)
    let field := s.takeWhile (· ∉ separators)
    field :: lineFields separators n (s.drop field.length)

/-- A line with its backslashes carried out. -/
def unslashed : List Char → List Char
  | '\\' :: c :: rest => if c = '\n' then unslashed rest else c :: unslashed rest
  | c :: rest => c :: unslashed rest
  | [] => []

/-- Reads a line into variables. -/
def readBuiltin : Builtin := fun _ words => do
  let plain := words.head? = some "-r"
  let names := if plain then words.drop 1 else words
  let line ← readLines 0 1
  let complete := line.endsWith "\n"
  let s := if complete then line.toList.dropLast else line.toList
  let s := if plain then s else unslashed s
  let fields := lineFields (← separators) names.length s
  (names.zip fields).forM fun (name, field) => assign name (String.ofList field)
  return if complete then 0 else 1

/-! ## The process -/

/-- Goes to another directory. -/
def cdBuiltin : Builtin := fun line words => do
  let p ← self
  let words := words.filter fun w => w ≠ "--" ∧ w ≠ "-P" ∧ w ≠ "-L"
  let target := words.headD (variableText p "HOME")
  let target := if target = "-" then variableText p "OLDPWD" else target
  match (← machine).find ⟨cooked target⟩ with
  | .ok (place, .directory) =>
    assign "OLDPWD" (raw (← machine).workPath.text)
    change fun p => { p with workDir := place }
    assign "PWD" (raw place.path.text)
    return 0
  | _ =>
    scriptComplaint line ("cd: can't cd to " ++ target)
    return 2

/-- Shows the working directory. -/
def pwdBuiltin : Builtin := fun line _ => do
  say line "pwd" (raw (← machine).workPath.text ++ "\n")

/-- The number of a signal. -/
def signalNumber? (s : String) : Option Nat :=
  match decimal? s with
  | some n => if n ≤ 64 then some n else none
  | none =>
    let name := if s.startsWith "SIG" then s else "SIG" ++ s
    if s = "EXIT" then some 0 else (ExitStatus.signalNames.idxOf? name).map (· + 1)

/-- Sends signals. -/
def killBuiltin : Builtin := fun line words => do
  let (signal, targets) : Option Nat × List String :=
    match words with
    | "-s" :: name :: rest => (signalNumber? name, rest)
    | w :: rest =>
      if w = "--" then (some 15, rest)
      else if w.startsWith "-" ∧ rest ≠ [] then (signalNumber? (w.drop 1).toString, rest)
      else (some 15, w :: rest)
    | [] => (some 15, [])
  let targets := if targets.head? = some "--" then targets.drop 1 else targets
  match signal, targets with
  | none, _ =>
    scriptComplaint line ("kill: Illegal option " ++ (words.headD ""))
    return 2
  | some _, [] =>
    scriptComplaint line
      ("kill: Usage: kill [-s sigspec | -signum | -sigspec] [pid | job]... or\n" ++
        "kill -l [exitstatus]")
    return 2
  | some signal, targets =>
    let code ← targets.foldlM (fun (code : Nat) target => do
      let s ← get
      match integer? (if target.startsWith "%" then toString s.process.lastJob else target) with
      | none =>
        scriptComplaint line ("kill: Illegal number: " ++ target)
        return 2
      | some n =>
        let known := s.process.pid :: s.process.parent :: (s.jobs.map (·.process.pid) ++ s.members)
        let receivers :=
          if n = 0 ∨ n < 0 then s.members else known.eraseDups.filter fun pid => (pid : Int) = n
        if receivers = [] then
          scriptComplaint line "kill: No such process"
          return 1
        else
          if signal ≠ 0 then receivers.forM fun pid => send pid signal
          return code) 0
    waitUntil (← self).time
    return code

/-- Sets what is done on signals and at the end. -/
def trapBuiltin : Builtin := fun line words => do
  let words := if words.head? = some "--" then words.drop 1 else words
  let set (action : Option String) (names : List String) : Work Nat :=
    names.foldlM (fun code name => do
      match signalNumber? name with
      | none =>
        scriptComplaint line ("trap: " ++ name ++ ": bad trap")
        return 1
      | some n =>
        change fun p =>
          let others := p.traps.filter fun trap => trap.1 ≠ n
          { p with traps := (action.map fun text => (n, text)).toList ++ others }
        return code) 0
  match words with
  | [] => return 0
  | [name] => set none [name]
  | action :: names =>
    if action = "-" then set none names
    else if (decimal? action).isSome then set none words
    else set (some action) names

/-- Waits until the first signal that has a script, or a time. The result tells whether
such a signal came. -/
def waitOrSignal (time : Nat) : Work Bool := do
  collect
  let p ← self
  match p.signals.find? fun signal => signal.1 ≤ time ∧ p.handles? signal.2 with
  | some (earlier, _) =>
    waitUntil earlier
    return true
  | none =>
    waitUntil time
    return false

/-- Waits for background processes: for all of them, or for given ones, of which the last
tells its status. -/
def waitBuiltin (run : Runner) : Builtin := fun _ words => do
  runJobs run manyJobs
  let s ← get
  let mine := (s.finished.filter fun e => e.1 = s.process.pid).map Prod.snd
  let wanted := words.filterMap decimal?
  let chosen := if words = [] then mine else mine.filter fun e => e.pid ∈ wanted
  let time := chosen.foldl (fun time e => max time e.finish) s.process.time
  if ← waitOrSignal time then return 128 + ((← self).pending.getLast?.getD 0)
  else if words = [] then return 0
  else
    match wanted.getLast?.bind fun pid => chosen.find? fun e => e.pid = pid with
    | none => return 127
    | some e =>
      mourn e.status
      return e.number

/-- The commands that need nothing but the process. -/
def simpleBuiltins : List (String × Builtin) :=
  [("echo", echoBuiltin), ("printf", printfBuiltin), ("test", testBuiltin false),
    ("[", testBuiltin true), (":", fun _ _ => return 0), ("true", fun _ _ => return 0),
    ("false", fun _ _ => return 1), ("export", declareBuiltin true),
    ("readonly", declareBuiltin false), ("local", declareBuiltin false), ("unset", unsetBuiltin),
    ("shift", shiftBuiltin), ("set", setBuiltin), ("read", readBuiltin), ("cd", cdBuiltin),
    ("pwd", pwdBuiltin), ("kill", killBuiltin), ("trap", trapBuiltin),
    ("umask", fun _ _ => return 0), ("ulimit", fun _ _ => return 0), ("hash", fun _ _ => return 0),
    ("times", fun _ _ => return 0)]

/-- The commands that go elsewhere in the script. -/
def jumpBuiltins : List (String × Builtin) :=
  [("exit", fun line words => do
      endWith (← numberOr line "exit" (← self).status words)),
    ("return", fun line words => do
      let code ← numberOr line "return" (← self).status words
      change fun p => { p with status := code }
      throw .returned),
    ("break", fun line words => do
      throw (.leaveLoop (← numberOr line "break" 1 words))),
    ("continue", fun line words => do
      throw (.nextRound (← numberOr line "continue" 1 words)))]

/-- Says what a word is as a command. -/
def describe (verbose : Bool) (builtins : List String) : Builtin := fun line words => do
  words.foldlM (fun code w => do
    if w ∈ builtins then
      let _ ← say line "command" (w ++ (if verbose then " is a shell builtin\n" else "\n"))
      return code
    else
      match (← searching).programFor (cooked w) with
      | .ok path =>
        let _ ← say line "command" <|
          if verbose then w ++ " is " ++ raw path.text ++ "\n" else raw path.text ++ "\n"
        return code
      | .error _ =>
        if verbose then
          let _ ← say line "type" (w ++ ": not found\n")
        return 127) 0

/-- The commands that work through further scripts. -/
def scriptBuiltins (run : Runner) : List (String × Builtin) :=
  [("eval", fun _ words => runText run {} (" ".intercalate words)),
    (".", fun line words => do
      match words with
      | [] => return 0
      | file :: _ =>
        match ← openToRead file with
        | .error fault => giveUp line (".: " ++ redirectionFault "open" file fault)
        | .ok handle =>
          setHandle fileNumber handle
          let text ← readAll fileNumber
          change fun p => { p with handles := p.handles.filter (·.1 ≠ fileNumber) }
          match ← attempt (runText run {} text) with
          | .error .returned => return (← self).status
          | result => conclude result),
    ("wait", waitBuiltin run)]

/-- The command of a name, if scripts carry it out themselves. -/
def builtin? (run : Runner) (name : String) : Option Builtin :=
  let all := simpleBuiltins ++ jumpBuiltins ++ scriptBuiltins run
  match name with
  | "type" => some (describe true (all.map Prod.fst))
  | _ => all.lookup name

end SongPreview.Shell
