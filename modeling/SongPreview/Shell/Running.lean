import SongPreview.Shell.Builtins

/-!
# Working through scripts

A script is worked through command by command. What a part needs of other parts it gets
from a runner, so that the recursion stands in one place and its depth is bounded there.
-/

namespace SongPreview.Shell

/-- Whether a process has something to do on signals or at its end. -/
def Process.hasTraps (p : Process) : Bool :=
  p.traps.any fun trap => trap.2 ≠ ""

/-- Whether nothing of the process is needed behind a part. -/
def canTakeOver (manner : Manner) : Work Bool := do
  return manner.last && !(← self).hasTraps

/-- Does what was set for the signals that have come. -/
def answerSignals (run : Runner) : Nat → Work Unit
  | 0 => pure ()
  | bound + 1 => do
    let p ← self
    match p.pending with
    | [] => pure ()
    | signal :: rest =>
      change fun p => { p with pending := rest }
      runTrap run ((p.traps.lookup signal).getD "")
      answerSignals run bound

/-! ## Simple commands -/

/-- Does something with numbers led elsewhere, and leads them back. -/
def redirected (run : Runner) (line : Nat) (redirects : List Redirect) (fatal : Bool)
    (body : Work Nat) : Work Nat := do
  if redirects = [] then body
  else
    let handles := (← self).handles
    match ← redirect run line redirects with
    | some text =>
      change fun p => { p with handles }
      if fatal then giveUp line text
      else
        scriptComplaint line text
        return 2
    | none =>
      let result ← attempt body
      change fun p => { p with handles }
      conclude result

/-- Leads numbers elsewhere for good. -/
def redirectForGood (run : Runner) (line : Nat) (redirects : List Redirect) : Work Unit := do
  let before := (← self).handles
  match ← redirect run line redirects with
  | some text => giveUp line text
  | none =>
    let p ← self
    closeHandles p.time ((before.filter fun h => h ∉ p.handles).map Prod.snd)

/-- Calls a function. -/
def call (run : Runner) (manner : Manner) (body : Script) (arguments : List String) : Work Nat := do
  let outer := (← self).arguments
  change fun p => { p with arguments }
  let result ← attempt (run { manner with last := false } body)
  change fun p => { p with arguments := outer }
  match result with
  | .error .returned => return (← self).status
  | result => conclude result

/-- Complains about a program that cannot be launched. -/
def launchFault (line : Nat) (word : String) (fault : Fault) : Work Nat := do
  match fault with
  | .notFound | .notDirectory =>
    scriptComplaint line (word ++ ": not found")
    return 127
  | fault =>
    scriptComplaint line (word ++ ": " ++ fault.words)
    return 126

/-- Launches a program in the process at work. -/
def launchHere (run : Runner) (line : Nat) (redirects : List Redirect) (word : String)
    (arguments : List String) : Work Nat := do
  redirectForGood run line redirects
  match ← launchFromScript word arguments with
  | .error fault => launchFault line word fault
  | .ok found => launch run launchDepth found

/-- Launches a program in a process of its own, unless nothing follows in this one. -/
def launchProgram (run : Runner) (manner : Manner) (line : Nat)
    (assignments : List (String × String)) (redirects : List Redirect) (word : String)
    (arguments : List String) : Work Nat := do
  let body : Work Nat := do
    exportAll assignments
    launchHere run line redirects word arguments
  if ← canTakeOver manner then endWith (← body)
  else
    let child ← newProcess
    awaitCommand (← workThrough child body)

/-- Carries out a command that replaces the process, or leads numbers elsewhere. -/
def replaceProcess (run : Runner) (line : Nat) (redirects : List Redirect) (words : List String) :
    Work Nat := do
  match words with
  | [] =>
    redirectForGood run line redirects
    return 0
  | word :: arguments =>
    redirectForGood run line redirects
    match ← launchFromScript word arguments with
    | .error fault => endWith (← launchFault line ("exec: " ++ word) fault)
    | .ok found => endWith (← launch run launchDepth found)

/-- Carries out the words of a command. -/
def command (run : Runner) (manner : Manner) (line : Nat) (assignments : List (String × String))
    (redirects : List Redirect) (functions : List (String × Script)) (word : String)
    (arguments : List String) : Work Nat := do
  let withAssignments (stay : Bool) (body : Work Nat) : Work Nat := do
    if assignments = [] then body
    else
      let before := (← self).bindings
      assignments.forM fun (name, value) => assign name value
      if stay then body
      else
        let result ← attempt body
        change fun p => { p with bindings := before }
        conclude result
  if word = "exec" then
    exportAll assignments
    replaceProcess run line redirects arguments
  else if word ∈ specialBuiltins then
    match builtin? run word with
    | some builtin =>
      withAssignments true (redirected run line redirects true (builtin line arguments))
    | none => return 0
  else
    match functions.lookup word, builtin? run word with
    | some body, _ =>
      withAssignments true (redirected run line redirects false (call run manner body arguments))
    | none, some builtin =>
      withAssignments false (redirected run line redirects false (builtin line arguments))
    | none, none => launchProgram run manner line assignments redirects word arguments

/-- Carries out a simple command. -/
def simpleCommand (run : Runner) (manner : Manner) (line : Nat) (assignments : List (String × Word))
    (words : List Word) (redirects : List Redirect) : Work Nat := do
  spend stepTime
  let fields := (← words.mapM (textsOf run line)).flatten
  let fromOutput := assignments.any fun a => a.2.any fun
    | .output .. => true
    | _ => false
  let values ← assignments.mapM fun (name, w) => do return (name, ← textOf run line w)
  match fields with
  | [] =>
    values.forM fun (name, value) => assign name value
    let before := (← self).status
    let status := if fromOutput then before else 0
    redirected run line redirects false (return status)
  | "command" :: rest =>
    match rest with
    | "-v" :: names =>
      let all := (simpleBuiltins ++ jumpBuiltins ++ scriptBuiltins run).map Prod.fst
      redirected run line redirects false (describe false all line names)
    | word :: arguments => command run manner line values redirects [] word arguments
    | [] => return 0
  | word :: arguments =>
    command run manner line values redirects (← self).functions word arguments

/-! ## Processes -/

/-- A process for a part of a script, with other numbers. -/
def partProcess (run : Runner) (manner : Manner) (handles : List (Nat × Handle)) (body : Script) :
    Work Ending := do
  let child ← newProcess
  let others := child.handles.filter fun h => (handles.lookup h.1).isNone
  workThrough { child with handles := handles ++ others }
    (run { manner with last := true } (.subshell body))

/-- Scripts of which each reads what the one before writes. All of them run at once; a
writer whose reader is gone is told so. The result is how they ended, in their order. -/
def row (run : Runner) (manner : Manner) (input : Option Handle) : Script → Work (List Ending)
  | .pipe left right => do
    let numbers := (input.map fun h => (0, h)).toList
    let before ← get
    let once (gone : Option Nat) : Work (Option Nat × List Ending) := do
      let id ← newStream { gone }
      let ending ← partProcess run { tested := true } (numbers ++ [(1, .stream id)]) left
      changeStream id fun s =>
        { s with unread := s.written.reverse, closed := max s.closed ending.finish }
      let lastWrite := ((← stream id).written.head?.map Prod.fst).getD 0
      let others ← row run manner (some (.stream id)) right
      let reader := (others.head?.map Ending.finish).getD never
      return (if reader < max lastWrite ending.finish ∧ reader < never then some reader else none,
        ending :: others)
    let (readerGone, endings) ← once none
    match readerGone with
    | none => return endings
    | some gone =>
      set before
      return (← once (some gone)).2
  | body => do
    return [← partProcess run manner (input.map fun h => (0, h)).toList body]

/-! ## Loops -/

/-- The latest time at which a loop begins another round. -/
def horizon : Nat := 120000000

/-- How many rounds a loop has at most. -/
def manyRounds : Nat := 200000

/-- What a round of a loop came to: whether there is another, and the status. -/
def roundOf (body : Work Nat) : Work (Bool × Nat) := do
  match ← attempt body with
  | .ok code => return (true, code)
  | .error (.leaveLoop levels) =>
    if levels ≤ 1 then return (false, 0) else throw (.leaveLoop (levels - 1))
  | .error (.nextRound levels) =>
    if levels ≤ 1 then return (true, 0) else throw (.nextRound (levels - 1))
  | .error stop => throw stop

/-- Repeats a round as long as it says so. A loop beyond all bounds goes on for ever. -/
def rounds (round : Nat → Work (Bool × Nat)) : Nat → Nat → Work Nat
  | 0, status => fun s => (do waitUntil never; return status : Work Nat) s
  | bound + 1, status => fun s =>
    match round status s with
    | (.error stop, s) => (.error stop, s)
    | (.ok (false, status), s) => (.ok status, s)
    | (.ok (true, status), s) =>
      rounds round (if horizon < s.process.time then 0 else bound) status s
termination_by bound => bound
decreasing_by split <;> omega

/-- Repeats a round for some values. -/
def roundsFor (round : String → Work (Bool × Nat)) : List String → Nat → Work Nat
  | [], status => fun s => (.ok status, s)
  | value :: rest, _ => fun s =>
    match round value s with
    | (.error stop, s) => (.error stop, s)
    | (.ok (false, status), s) => (.ok status, s)
    | (.ok (true, status), s) => roundsFor round rest status s

/-! ## Scripts -/

/-- A command has ended: its status is kept, signals are answered, and a strict script ends
with a command that fails, unless something looks at the failure. -/
def commandEnded (run : Runner) (manner : Manner) (code : Nat) : Work Nat := do
  change fun p => { p with status := code }
  answerSignals run 10
  if code ≠ 0 ∧ (← self).strict ∧ ¬ manner.tested then endWith code
  return code

/-- Commands whose output goes on to the next one, as one command. -/
def pipeline (run : Runner) (manner : Manner) (script : Script) : Work Nat := do
  let endings ← row run { tested := manner.tested } none script
  waitUntil (endings.foldl (fun time e => max time e.finish) 0)
  endings.forM fun e => mourn e.status
  commandEnded run manner ((endings.getLast?.map Ending.number).getD 0)

/-- Leaves a script to a process that is not waited for. -/
def inBackground (body : Script) : Work Nat := do
  spend stepTime
  let child ← newProcess
  let handles := (0, .device .null) :: child.handles.filter (·.1 ≠ 0)
  modify fun s => { s with
    jobs := s.jobs ++ [⟨s.process.pid, { child with handles }, body⟩]
    process := { s.process with lastJob := child.pid } }
  return 0

/-- Carries out a script in a process of its own, unless nothing follows it in this one. -/
def inSubshell (run : Runner) (manner : Manner) (body : Script) : Work Nat := do
  let inside : Work Nat := asScript run (run { manner with last := true } body)
  if ← canTakeOver manner then inside
  else
    spend stepTime
    let child ← newProcess
    commandEnded run manner (← awaitCommand (← workThrough child inside))

/-- Repeats a script as long as a condition holds, or until it does. -/
def repeatWhile (run : Runner) (manner : Manner) (negated : Bool) (condition body : Script) :
    Work Nat :=
  rounds (fun status => do
    spend stepTime
    let (more, code) ← roundOf (run { tested := true } condition)
    if more ∧ (code = 0) ≠ negated then roundOf (run { manner with last := false } body)
    else return (false, status)) manyRounds 0

/-- Repeats a script for some words, or for the arguments if there are none. -/
def repeatFor (run : Runner) (manner : Manner) (name : String) (words : Option (List Word))
    (body : Script) : Work Nat := do
  spend stepTime
  let values ← match words with
    | none => pure (← self).arguments
    | some words => do pure (← words.mapM (textsOf run 1)).flatten
  roundsFor (fun value => do
    assign name value
    roundOf (run { manner with last := false } body)) values 0

/-- Carries out a part of a script, with a runner for the parts in it. -/
def carryOut (run : Runner) (manner : Manner) : Script → Work Nat
  | .skip => return 0
  | .simple line assignments words redirects => do
    commandEnded run manner (← simpleCommand run manner line assignments words redirects)
  | .redirected body redirects => do
    redirected run 1 redirects false (run { manner with last := false } body)
  | .pipe left right => pipeline run manner (.pipe left right)
  | .negated body => do
    let code ← run { tested := true } body
    return if code = 0 then 1 else 0
  | .both left right => do
    let code ← run { tested := true } left
    if code = 0 then run manner right else return code
  | .either left right => do
    let code ← run { tested := true } left
    if code = 0 then return code else run manner right
  | .sequence left right => do
    let code ← run { manner with last := false } left
    change fun p => { p with status := code }
    run manner right
  | .background body => inBackground body
  | .subshell body => inSubshell run manner body
  | .branch condition yes no => do
    let code ← run { tested := true } condition
    if code = 0 then run manner yes else run manner no
  | .loop negated condition body => repeatWhile run manner negated condition body
  | .each name words body => repeatFor run manner name words body
  | .choice subject patterns body rest => do
    let text ← textOf run 1 subject
    let fits ← patterns.anyM fun pattern => do
      return Glob.fit (Glob.parse (← fieldOf run 1 pattern)) text
    if fits then run manner body else run manner rest
  | .define name body => do
    change fun p => { p with functions := (name, body) :: p.functions.filter fun f => f.1 ≠ name }
    return 0

/-- Works through scripts that stand in each other up to a depth. -/
def runner : Nat → Runner
  | 0 => fun _ _ => do
    waitUntil never
    return 0
  | depth + 1 => carryOut (runner depth)

/-- How deep scripts stand in each other at most. -/
def scriptDepth : Nat := 3000

end SongPreview.Shell
