import SongPreview.Shell.Condition
import SongPreview.Shell.Format
import SongPreview.Shell.Tool

/-!
# Programs that work on their arguments

Names of files are taken apart, numbers are counted, arguments are shown and compared,
and time passes.
-/

namespace SongPreview.Shell

/-- A path without its slashes at the end. -/
def withoutSlashes (s : List Char) : List Char :=
  (s.reverse.dropWhile (· = '/')).reverse

/-- The last name of a path. -/
def lastName (path : String) : String :=
  let s := withoutSlashes path.toList
  if s = [] then if path = "" then "" else "/"
  else String.ofList (s.reverse.takeWhile (· ≠ '/')).reverse

/-- A name without an ending, unless nothing would be left. -/
def withoutEnding (ending name : String) : String :=
  if ending ≠ "" ∧ name.endsWith ending ∧ name ≠ ending then
    (name.dropEnd ending.length).toString
  else name

/-- Shows the last names of paths. -/
def basename : Tool := fun name arguments =>
  withOptions ⟨"az".toList, ['s'], [("multiple", 'a'), ("suffix", 's'), ("zero", 'z')], true⟩
    name arguments fun given => do
  let stop := if given.has 'z' then "\x00" else "\n"
  let several := given.has 'a' || given.has 's'
  match given.words, several with
  | [], _ => misuse name "missing operand" 1
  | words, true =>
    words.forM fun w => tell name (withoutEnding ((given.value? 's').getD "") (lastName w) ++ stop)
    return 0
  | [w], false =>
    tell name (lastName w ++ stop)
    return 0
  | [w, ending], false =>
    tell name (withoutEnding ending (lastName w) ++ stop)
    return 0
  | _ :: _ :: extra :: _, false => misuse name ("extra operand '" ++ extra ++ "'") 1

/-- Shows the directories of paths. -/
def dirname : Tool := fun name arguments =>
  withOptions ⟨['z'], [], [("zero", 'z')], false⟩ name arguments fun given => do
  if given.words = [] then misuse name "missing operand" 1
  else
    given.words.forM fun w => do
      let s := withoutSlashes w.toList
      let dir := withoutSlashes (s.reverse.dropWhile (· ≠ '/')).reverse
      tell name ((if dir ≠ [] then String.ofList dir else if w.startsWith "/" then "/" else ".") ++
        "\n")
    return 0

/-- A duration in microseconds. -/
def duration? (s : String) : Option Nat :=
  let cs := s.toList
  if cs = "inf".toList ∨ cs = "infinity".toList then some never
  else
    let (number, unit) :=
      match cs.getLast? with
      | some 's' => (cs.dropLast, 1)
      | some 'm' => (cs.dropLast, 60)
      | some 'h' => (cs.dropLast, 3600)
      | some 'd' => (cs.dropLast, 86400)
      | _ => (cs, 1)
    match Format.decimalFraction? number with
    | some (false, n, places) => some (n * unit * 1000000 / Nat.pow 10 places)
    | _ => none

/-- Waits. -/
def sleep : Tool := fun name arguments =>
  withOptions {} name arguments fun given => do
  if given.words = [] then misuse name "missing operand" 1
  else
    match given.words.filter fun w => (duration? w).isNone with
    | [] =>
      let whole := (given.words.filterMap duration?).foldl (· + ·) 0
      spend whole
      return 0
    | wrong =>
      wrong.dropLast.forM fun w =>
        complain (name ++ ": invalid time interval '" ++ w ++ "'\n")
      misuse name ("invalid time interval '" ++ wrong.getLast?.getD "" ++ "'") 1

/-- Counts up or down. -/
def seq : Tool := fun name arguments => do
  let (first, step, last) : Option Int × Option Int × Option Int :=
    match arguments with
    | [a] => (some 1, some 1, integer? a)
    | [a, b] => (integer? a, some 1, integer? b)
    | [a, s, b] => (integer? a, integer? s, integer? b)
    | _ => (none, none, none)
  match first, step, last with
  | some first, some step, some last =>
    if step = 0 then misuse name "invalid Zero increment value: '0'" 1
    else
      let count := if 0 < step then (last - first) / step + 1 else (first - last) / (-step) + 1
      tell name (String.join ((List.range count.toNat).map fun i =>
        toString (first + step * Int.ofNat i) ++ "\n"))
      return 0
  | _, _, _ =>
    match arguments with
    | [] => misuse name "missing operand" 1
    | w :: _ => misuse name ("invalid floating point argument: '" ++ w ++ "'") 1

/-- Shows the working directory. -/
def pwd : Tool := fun name _ => do
  tell name (raw (← machine).workPath.text ++ "\n")
  return 0

/-- The options at the front of an echo. -/
def echoOptions : List String → Bool × Bool × List String
  | w :: rest =>
    match w.toList with
    | '-' :: c :: letters =>
      if (c :: letters).all fun c => c ∈ ['n', 'e', 'E'] then
        let (quiet, escapes, rest) := echoOptions rest
        let here := (c :: letters).filter (· ≠ 'n') |>.getLast?
        (quiet || 'n' ∈ c :: letters, escapes || here = some 'e', rest)
      else (false, false, w :: rest)
    | _ => (false, false, w :: rest)
  | [] => (false, false, [])

/-- Shows its arguments. -/
def echo : Tool := fun name arguments => do
  let (quiet, escapes, words) := echoOptions arguments
  let text :=
    if escapes then Format.echoed .program [] words else " ".intercalate words ++ "\n"
  tell name (if quiet ∧ text.endsWith "\n" then (text.dropEnd 1).toString else text)
  return 0

/-- Shows its arguments in a format. -/
def printf : Tool := fun name arguments => do
  match if arguments.head? = some "--" then arguments.drop 1 else arguments with
  | [] => misuse name "missing operand" 1
  | format :: rest =>
    let result := Format.run .program format rest
    tell name result.text
    result.errors.forM fun text => complain (name ++ ": " ++ text ++ "\n")
    return result.status

/-- Does nothing, well or badly. -/
def nothing (code : Nat) : Tool := fun _ _ => return code

/-- Says whether a condition holds. -/
def conditionStatus (name : String) (shell : Bool) (words : List String) : Work Nat := do
  match Condition.check (← machine) words with
  | .ok true => return 0
  | .ok false => return 1
  | .error (.notANumber text) =>
    complaint name (if shell then "Illegal number: " ++ text
      else "invalid integer '" ++ text ++ "'") 2
  | .error (.unexpected word) =>
    complaint name (if shell then word ++ ": unexpected operator"
      else "extra argument '" ++ word ++ "'") 2

/-- Says whether a condition holds; it may stand in brackets. -/
def testTool (brackets : Bool) : Tool := fun name words =>
  if brackets then
    if words.getLast? = some "]" then conditionStatus name false words.dropLast
    else complaint name "missing ']'" 2
  else conditionStatus name false words

end SongPreview.Shell
