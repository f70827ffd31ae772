import SongPreview.Shell.Editing
import SongPreview.Shell.Tool
import SongPreview.Shell.Translating

/-!
# Programs that work on texts

Texts are shown whole or in part, counted, translated and edited.
-/

namespace SongPreview.Shell

/-- A number at the front of numbered lines. -/
def lineLabel (n : Nat) : String :=
  let digits := toString n
  "".pushn ' ' (6 - digits.length) ++ digits ++ "\t"

/-- How lines are shown. -/
structure LineStyle where
  numbers : Bool
  /-- Blank lines have no number. -/
  fullOnly : Bool
  squeeze : Bool
  ends : Bool
  tabs : Bool

/-- A text in another style. The number of the next line and the number of blank lines
before it are kept. -/
def LineStyle.apply (style : LineStyle) (state : Nat × Nat) (text : String) :
    (Nat × Nat) × String :=
  let (state, out) := (linesOf text).foldl (fun (acc : (Nat × Nat) × List String) line =>
    let ((n, blanks), out) := acc
    let blank := line = "\n"
    if style.squeeze ∧ blank ∧ 1 ≤ blanks then ((n, blanks), out)
    else
      let numbered := style.numbers ∧ ¬ (style.fullOnly ∧ blank)
      let body := if style.tabs then line.replace "\t" "^I" else line
      let body := if style.ends then body.replace "\n" "$\n" else body
      ((if numbered then n + 1 else n, if blank then blanks + 1 else 0),
        (if numbered then lineLabel n ++ body else body) :: out)) (state, [])
  (state, String.join out.reverse)

/-- Shows files. -/
def cat : Tool := fun name arguments =>
  withOptions ⟨"nbsETuAvet".toList, [], [("number", 'n'), ("number-nonblank", 'b'),
    ("squeeze-blank", 's'), ("show-ends", 'E'), ("show-tabs", 'T'), ("show-all", 'A')], false⟩
    name arguments fun given => do
  if (← handle? 1).isNone then return ← complaint name "standard output: Bad file descriptor" 1
  let style : LineStyle := {
    numbers := given.has 'n' || given.has 'b'
    fullOnly := given.has 'b'
    squeeze := given.has 's'
    ends := given.has 'E' || given.has 'A' || given.has 'e'
    tabs := given.has 'T' || given.has 'A' || given.has 't' }
  if given.options = [] then
    readingAll given.words (unreadable name) fun _ number => readPieces number (tell name)
  else
    let texts ← (if given.words = [] then ["-"] else given.words).foldlM
      (fun (acc : (Nat × Nat) × Nat) file => do
        let mut state := acc.1
        match ← if file = "-" then pure (.ok none) else (some <$> ·) <$> openToRead file with
        | .error fault =>
          unreadable name file fault
          return (state, 1)
        | .ok handle =>
          handle.forM (setHandle fileNumber)
          let text ← readAll (if handle.isSome then fileNumber else 0)
          let (next, shown) := style.apply state text
          tell name shown
          return (next, acc.2)) ((1, 0), 0)
    return texts.2

/-- A count with a unit, such as `4k`. -/
def amount? (s : String) : Option Nat :=
  let digits := s.toList.takeWhile Char.isDigit
  let unit := String.ofList (s.toList.drop digits.length)
  let scale :=
    match unit with
    | "" => some 1
    | "b" => some 512
    | "k" | "K" | "KiB" => some 1024
    | "kB" | "KB" => some 1000
    | "m" | "M" | "MiB" => some (1024 * 1024)
    | "MB" => some 1000000
    | _ => none
  return (← decimal? (String.ofList digits)) * (← scale)

/-- The line that stands over a file among several. -/
def banner (first : Bool) (file : String) : String :=
  let shown := if file = "-" then "standard input" else file
  (if first then "" else "\n") ++ "==> " ++ shown ++ " <==\n"

/-- The text without its last lines. -/
def withoutLastLines (count : Nat) (text : String) : String :=
  String.join ((linesOf text).dropLast.take ((linesOf text).length - count) ++
    if count = 0 then (linesOf text).getLast?.toList else [])

/-- The options of `head` and `tail`, with the old form of a count. -/
def countOptions (arguments : List String) : List String :=
  match arguments with
  | first :: rest =>
    match first.toList with
    | '-' :: c :: digits =>
      if c.isDigit ∧ digits.all Char.isDigit then "-n" :: String.ofList (c :: digits) :: rest
      else arguments
    | _ => arguments
  | [] => []

/-- The options of `head` and `tail`. -/
def endOptions : Options :=
  ⟨"qvzf".toList, "nc".toList, [("lines", 'n'), ("bytes", 'c'), ("quiet", 'q'), ("silent", 'q'),
    ("verbose", 'v'), ("zero-terminated", 'z'), ("follow", 'f')], false⟩

/-- A count with a sign in front of it, if any. -/
def signedAmount? (s : String) : Option (Option Char × Nat) :=
  match s.toList with
  | '-' :: rest => (amount? (String.ofList rest)).map fun n => (some '-', n)
  | '+' :: rest => (amount? (String.ofList rest)).map fun n => (some '+', n)
  | _ => (amount? s).map fun n => (none, n)

/-- Goes over files with a line over each if there are several. -/
def overFiles (name : String) (given : Given) (use : Nat → Work Unit) : Work Nat := do
  let files := if given.words = [] then ["-"] else given.words
  let labelled := (files.length > 1 && !given.has 'q') || given.has 'v'
  let (code, _) ← files.foldlM (fun (acc : Nat × Bool) file => do
    let read ← reading file (fun fault =>
        complain (name ++ ": " ++ (if fault = .isDirectory then "error reading " ++ quotedName file
          else "cannot open " ++ quotedName file ++ " for reading") ++ ": " ++ fault.words ++ "\n"))
      fun number => do
        if labelled then tell name (banner acc.2 file)
        use number
    return (if read then acc.1 else 1, acc.2 && !read)) (0, true)
  return code

/-- Shows the beginning of files. -/
def head : Tool := fun name arguments =>
  withOptions endOptions name (countOptions arguments) fun given => do
  let (bytes, text) : Bool × String :=
    match given.options.reverse.find? fun o => o.1 = 'n' ∨ o.1 = 'c' with
    | some (c, text) => (c = 'c', text)
    | none => (false, "10")
  match signedAmount? text with
  | none =>
    complaint name ("invalid number of " ++ (if bytes then "bytes" else "lines") ++ ": '" ++ text ++
      "'") 1
  | some (sign, count) =>
    overFiles name given fun number => do
      if sign = some '-' then
        let text ← readAll number
        tell name (if bytes then (text.take (text.length - count)).toString
          else withoutLastLines count text)
      else tell name (← if bytes then readBytes number count else readLines number count)

/-- Shows the end of files. -/
def tail : Tool := fun name arguments =>
  withOptions endOptions name (countOptions arguments) fun given => do
  let (bytes, text) : Bool × String :=
    match given.options.reverse.find? fun o => o.1 = 'n' ∨ o.1 = 'c' with
    | some (c, text) => (c = 'c', text)
    | none => (false, "10")
  match signedAmount? text with
  | none =>
    complaint name ("invalid number of " ++ (if bytes then "bytes" else "lines") ++ ": '" ++ text ++
      "'") 1
  | some (sign, count) =>
    overFiles name given fun number => do
      let text ← readAll number
      let fromStart := sign = some '+'
      tell name <|
        if bytes then
          (text.drop (if fromStart then count - 1 else text.length - count)).toString
        else
          let lines := linesOf text
          String.join (lines.drop (if fromStart then count - 1 else lines.length - count))

/-- Translates characters. -/
def tr : Tool := fun name arguments =>
  withOptions ⟨"cCdst".toList, [], [("complement", 'c'), ("delete", 'd'), ("squeeze-repeats", 's'),
    ("truncate-set1", 't')], true⟩ name arguments fun given => do
  let delete := given.has 'd'
  let squeeze := given.has 's'
  let complement := given.has 'c' || given.has 'C'
  let go (plan : Translating.Plan) : Work Nat := do
    if (← handle? 0).isNone then return ← complaint name "read error: Bad file descriptor" 1
    let number := 0
    match ← supply? number with
    | none => return 0
    | some supply =>
      let shown := supply.pieces.foldl (fun (acc : List (Nat × String) × Option Char) piece =>
        let (text, before) := plan.run acc.2 piece.2
        ((piece.1, text) :: acc.1, before)) ([], none)
      leave number []
      shown.1.reverse.forM fun (time, text) => do
        waitUntil time
        tell name text
      if supply.zeros then readPieces number fun _ => tell name "\x00"
      waitUntil supply.closed
      return 0
  match given.words with
  | [] => misuse name "missing operand" 1
  | [source] =>
    let source' := Translating.ofText source
    if delete ∧ ¬ squeeze then go ⟨source', complement, [], true, [], false⟩
    else if squeeze ∧ ¬ delete then go ⟨[], false, [], false, source', complement⟩
    else
      misuse name ("missing operand after '" ++ source ++ "'" ++
        (if delete then "\nTwo strings must be given when both deleting and squeezing repeats."
          else "\nTwo strings must be given when translating.")) 1
  | [source, target] =>
    let source' := Translating.ofText source
    let target' := Translating.ofText target
    if delete ∧ ¬ squeeze then
      misuse name ("extra operand '" ++ target ++
        "'\nOnly one string may be given when deleting without squeezing repeats.") 1
    else if delete then go ⟨source', complement, [], true, target', false⟩
    else if target' = [] then complaint name "when not truncating set1, string2 must be non-empty" 1
    else go ⟨source', complement, target', false, if squeeze then target' else [], false⟩
  | _ :: _ :: extra :: _ => misuse name ("extra operand '" ++ extra ++ "'") 1

/-- How much there is of a text: lines, words, characters, bytes, the longest line. -/
structure Amounts where
  lines : Nat := 0
  words : Nat := 0
  bytes : Nat := 0
  longest : Nat := 0

/-- The amounts of a text. -/
def Amounts.ofText (text : String) : Amounts :=
  let (a, _, width) := text.foldl (fun (acc : Amounts × Bool × Nat) c =>
    let (a, inWord, width) := acc
    let blank := c = ' ' ∨ ('\t' ≤ c ∧ c ≤ '\x0d')
    ({ lines := if c = '\n' then a.lines + 1 else a.lines
       words := if ¬ blank ∧ ¬ inWord then a.words + 1 else a.words
       bytes := a.bytes + 1
       longest := if c = '\n' then max a.longest width else a.longest },
      !blank, if c = '\n' then 0 else width + 1)) ({}, false, 0)
  { a with longest := max a.longest width }

/-- The amounts of two texts together. -/
def Amounts.add (a b : Amounts) : Amounts :=
  ⟨a.lines + b.lines, a.words + b.words, a.bytes + b.bytes, max a.longest b.longest⟩

/-- Counts lines, words and bytes. -/
def wc : Tool := fun name arguments =>
  withOptions ⟨"lwcmL".toList, [], [("lines", 'l'), ("words", 'w'), ("bytes", 'c'), ("chars", 'm'),
    ("max-line-length", 'L')], false⟩ name arguments fun given => do
  let all := given.options = []
  let columns (a : Amounts) : List Nat :=
    (if all || given.has 'l' then [a.lines] else []) ++
      (if all || given.has 'w' then [a.words] else []) ++
      (if given.has 'm' then [a.bytes] else []) ++
      (if all || given.has 'c' then [a.bytes] else []) ++
      (if given.has 'L' then [a.longest] else [])
  let files := if given.words = [] then ["-"] else given.words
  let (found, code, regular) ← files.foldlM
    (fun (acc : List (String × Amounts) × Nat × Bool) file => do
      let before ← if file = "-" then
          match ← handle? 0 with
          | some (.stream id) => pure (← stream id).ofFile
          | _ => pure false
        else pure true
      match ← if file = "-" then pure (.ok none) else (some <$> ·) <$> openToRead file with
      | .error fault =>
        unreadable name file fault
        return (if fault = .isDirectory then acc.1 ++ [(file, {})] else acc.1, 1, acc.2.2)
      | .ok handle =>
        handle.forM (setHandle fileNumber)
        let text ← readAll (if handle.isSome then fileNumber else 0)
        return (acc.1 ++ [(file, .ofText text)], acc.2.1, acc.2.2 && before)) ([], 0, true)
  let total := found.foldl (fun sum f => sum.add f.2) {}
  let width :=
    if files.length = 1 ∧ (columns {}).length = 1 then 1
    else if regular then (toString total.bytes).length
    else 7
  let row (a : Amounts) (label : String) : String :=
    " ".intercalate ((columns a).map fun n =>
      "".pushn ' ' (width - (toString n).length) ++ toString n) ++ label ++ "\n"
  found.forM fun (file, a) =>
    tell name (row a (if given.words = [] then "" else " " ++ file))
  if 1 < files.length then tell name (row total " total")
  return code

/-- Passes its input on, and into files. -/
def tee : Tool := fun name arguments =>
  withOptions ⟨"ai".toList, [], [("append", 'a')], false⟩ name arguments fun given => do
  let (_, code) ← given.words.foldlM (fun (acc : Nat × Nat) file => do
    match ← openToWrite file (given.has 'a') with
    | .ok handle =>
      setHandle (fileNumber + acc.1) handle
      return (acc.1 + 1, acc.2)
    | .error fault =>
      unreadable name file fault
      return (acc.1, 1)) (1, 0)
  readPieces 0 fun text => do
    tell name text
    (List.range given.words.length).forM fun i => do
      let _ ← write (fileNumber + 1 + i) text
  return code

/-- Edits lines. -/
def sed : Tool := fun name arguments =>
  withOptions ⟨"nErsuz".toList, ['e'], [("quiet", 'n'), ("silent", 'n'), ("regexp-extended", 'E'),
    ("expression", 'e')], false⟩ name arguments fun given => do
  let scripts := (given.options.filter fun o => o.1 = 'e').map Prod.snd
  let (script, files) : Option String × List String :=
    if scripts = [] then (given.words.head?, given.words.drop 1)
    else (some ("\n".intercalate scripts), given.words)
  match script with
  | none =>
    complain ("Usage: " ++ name ++
      " [OPTION]... \x7bscript-only-if-no-other-script\x7d [input-file]...\n")
    return 1
  | some script =>
    match Editing.parse? (given.has 'E' || given.has 'r') script with
    | none => complaint name "-e expression #1, char 1: unknown command" 1
    | some commands =>
      let texts ← (if files = [] then ["-"] else files).mapM fun file => do
        match ← if file = "-" then pure (.ok none) else (some <$> ·) <$> openToRead file with
        | .error fault =>
          complain (name ++ (if fault = .isDirectory then ": couldn't edit " ++ file ++
              ": not a regular file\n"
            else ": can't read " ++ file ++ ": " ++ fault.words ++ "\n"))
          return none
        | .ok handle =>
          handle.forM (setHandle fileNumber)
          return some (← readAll (if handle.isSome then fileNumber else 0))
      let (text, code) := Editing.edit commands (given.has 'n') (String.join (texts.filterMap id))
      tell name text
      return if code = 0 ∧ texts.any Option.isNone then 2 else code

end SongPreview.Shell
