import SongPreview.CommandLine

/-!
# Reading command lines

A command line is read from left to right. An option that takes a value stays open
until its value has come; the value is judged when the next option, positional or
the end is reached. The options in front of the command are judged after those
behind it.
-/

namespace SongPreview.CommandLine

/-- The things that can be given. -/
inductive Slot where
  | colour | config | verbose | help | version
  | renderer | timeout | stdin | transpose
  | output | log | pane | debounce | directives
  | song
  deriving DecidableEq, Repr

/-- The parts of a command line: in front of the command, and behind each. -/
inductive Level where
  | top | watch | render | info
  deriving DecidableEq, Repr

namespace Slot

/-- The long name of an option. -/
def long : Slot → String
  | colour => "color" | config => "config" | verbose => "verbose" | help => "help"
  | version => "version" | renderer => "renderer" | timeout => "timeout" | stdin => "stdin"
  | transpose => "transpose" | output => "output" | log => "log" | pane => "pane"
  | debounce => "debounce" | directives => "directives" | song => ""

/-- The short name of an option. -/
def short? : Slot → Option Char
  | config => 'C' | verbose => 'v' | help => 'h' | version => 'V' | renderer => 'r'
  | timeout => 't' | stdin => 'S' | transpose => 'x' | output => 'o' | log => 'l'
  | pane => 'p' | debounce => 'd' | directives => 'd' | colour | song => none

/-- Whether a value belongs to it. -/
def takesValue : Slot → Bool
  | verbose | help | version | stdin | directives => false
  | _ => true

/-- Whether its value may begin with a hyphen. -/
def takesHyphen : Slot → Bool
  | transpose => true
  | _ => false

/-- A decimal numeral with an optional sign. -/
def signedNumeral? (s : String) : Option Int :=
  let (negative, digits) : Bool × List Char :=
    match s.toList with
    | '-' :: rest => (true, rest)
    | '+' :: rest => (false, rest)
    | rest => (false, rest)
  if digits ≠ [] ∧ digits.all Char.isDigit then
    let n : Int := digits.foldl (fun n c => 10 * n + (c.toNat - '0'.toNat)) 0
    some (if negative then -n else n)
  else none

/-- A number of milliseconds: a numeral below 2^64 without a minus. -/
def milliseconds? (s : String) : Option Nat :=
  if s.toList.head? = some '-' then none
  else ((signedNumeral? s).map Int.toNat).filter (· < Nat.pow 2 64)

/-- A number of semitones, in 32 bits. -/
def semitones? (s : String) : Option Int :=
  (signedNumeral? s).filter fun n => -(Nat.pow 2 31 : Int) ≤ n ∧ n < Nat.pow 2 31

/-- What is wrong with a value, if anything. -/
def fault? (slot : Slot) (value : String) : Option UsageFault :=
  match slot with
  | colour => if (ColourChoice.ofName? value).isNone then some .invalidValue else none
  | pane => if (Pane.ofName? value).isNone then some .invalidValue else none
  | timeout | debounce => if (milliseconds? value).isNone then some .invalidNumber else none
  | transpose => if (semitones? value).isNone then some .invalidNumber else none
  | verbose | help | version | stdin | directives => none
  | config | renderer | output | log | song => if value = "" then some .invalidValue else none

end Slot

namespace Level

/-- The options that may stand at a level, in the order in which help lists them. -/
def slots : Level → List Slot
  | top => [.colour, .config, .verbose, .help, .version]
  | watch => [.colour, .renderer, .config, .timeout, .stdin, .verbose, .transpose, .output,
      .log, .pane, .debounce, .help]
  | render => [.colour, .renderer, .config, .timeout, .stdin, .verbose, .transpose, .output,
      .help]
  | info => [.colour, .renderer, .config, .timeout, .stdin, .verbose, .transpose,
      .directives, .help]

/-- What help asked for at a level is about. -/
def page : Level → HelpPage
  | top => .overview
  | watch => .watch
  | render => .render
  | info => .info

/-- Whether a song is named at a level. -/
def takesSong : Level → Bool
  | watch | render => true
  | top | info => false

/-- The option of a long name. -/
def findLong? (l : Level) (name : String) : Option Slot :=
  l.slots.find? fun slot => slot.long = name

/-- The option of a short name. -/
def findShort? (l : Level) (c : Char) : Option Slot :=
  l.slots.find? fun slot => slot.short? = some c

end Level

/-- The level that a command's name or alias opens. -/
def commandLevel? (word : String) : Option Level :=
  if word ∈ ["watch", "w"] then some .watch
  else if word ∈ ["render", "r"] then some .render
  else if word ∈ ["info", "i"] then some .info
  else none

/-- What has been read at one level. -/
structure Reading where
  level : Level
  /-- The options and arguments accepted so far, with their values. -/
  given : List (Slot × String) := []
  /-- What has been begun and is not judged yet, with its value if that has come. -/
  opened : Option (Slot × Option String) := none
  /-- Whether two hyphens have ended the options. -/
  escaped : Bool := false

namespace Reading

/-- Whether the open option still waits for its value. -/
def waiting? (r : Reading) : Option Slot :=
  match r.opened with
  | some (slot, none) => some slot
  | _ => none

/-- Judges something that was given. Help and version end the reading. -/
def accept (r : Reading) (slot : Slot) (value : String) : Except UsageFault Reading :=
  match slot with
  | .help => .error (.help r.level.page)
  | .version => .error .version
  | _ =>
    if r.given.any (·.1 = slot) then .error .repeated
    else
      match slot.fault? value with
      | some fault => .error fault
      | none => .ok { r with given := r.given ++ [(slot, value)] }

/-- Judges what is open. -/
def settle (r : Reading) : Except UsageFault Reading :=
  match r.opened with
  | none => .ok r
  | some (_, none) => .error .invalidValue
  | some (slot, some value) => accept { r with opened := none } slot value

/-- Accepts something complete, after what was open. -/
def give (r : Reading) (slot : Slot) (value : String) : Except UsageFault Reading := do
  (← r.settle).accept slot value

/-- Opens an option whose value is still to come, or accepts it with its value. -/
def option (r : Reading) (slot : Slot) (value : Option String) : Except UsageFault Reading :=
  match value with
  | some value => r.give slot value
  | none => do
    let r ← r.settle
    return { r with opened := some (slot, none) }

/-- Reads an option by its long name. -/
def long (r : Reading) (name : String) (value : Option String) : Except UsageFault Reading :=
  match r.level.findLong? name with
  | none => .error .unknownArgument
  | some slot =>
    if slot.takesValue then r.option slot value
    else if value.isSome then .error .unexpectedValue
    else r.give slot ""

/-- Reads a cluster of short options. The first that takes a value takes the rest of
the cluster, without an equals sign in front of it. -/
def cluster (r : Reading) : List Char → Except UsageFault Reading
  | [] => .ok r
  | c :: rest =>
    match r.level.findShort? c with
    | none => .error .unknownArgument
    | some slot =>
      if slot.takesValue then
        let value := if rest.head? = some '=' then rest.drop 1 else rest
        r.option slot (if rest = [] then none else some (String.ofList value))
      else do
        let r ← r.give slot ""
        r.cluster rest

/-- Reads an argument that is not an option. -/
def positional (r : Reading) (word : String) : Except UsageFault Reading :=
  if r.level.takesSong ∧ ¬ r.given.any (·.1 = .song) ∧ r.opened.map Prod.fst ≠ some .song then do
    let r ← r.settle
    return { r with opened := some (.song, some word) }
  else if r.level = .top ∧ ¬ (r.escaped ∧ (word = "help" ∨ (commandLevel? word).isSome)) then
    .error .unknownCommand
  else .error .unknownArgument

/-- Reads a word that is not a command's name. -/
def word (r : Reading) (text : String) : Except UsageFault Reading :=
  if r.escaped then r.positional text
  else
    match r.waiting? with
    | some slot =>
      let value : Except UsageFault Reading :=
        .ok { r with opened := some (slot, some text) }
      if slot.takesHyphen then value
      else
        match text.toList with
        | '-' :: '-' :: [] => .ok { r with escaped := true }
        | '-' :: '-' :: rest => longText r rest
        | '-' :: c :: rest => r.cluster (c :: rest)
        | _ => value
    | none =>
      match text.toList with
      | '-' :: '-' :: [] => .ok { r with escaped := true }
      | '-' :: '-' :: rest => longText r rest
      | '-' :: c :: rest => r.cluster (c :: rest)
      | _ => r.positional text
where
  /-- The name of a long option, and its value behind an equals sign. -/
  longText (r : Reading) (rest : List Char) : Except UsageFault Reading :=
    let name := String.ofList (rest.takeWhile (· ≠ '='))
    match rest.dropWhile (· ≠ '=') with
    | '=' :: value => r.long name (some (String.ofList value))
    | _ => r.long name none

/-- Judges a level at its end. -/
def finish (r : Reading) : Except UsageFault Reading := do
  let r ← r.settle
  if r.level.takesSong ∧ ¬ r.given.any (·.1 = .song) then .error .missingArgument
  else return r

/-- The value given for a slot. -/
def value? (r : Reading) (slot : Slot) : Option String :=
  (r.given.find? (·.1 = slot)).map Prod.snd

/-- The path given for a slot. -/
def path? (r : Reading) (slot : Slot) : Option Path :=
  (r.value? slot).map Path.mk

/-- The renderer's options. -/
def options (r : Reading) : RendererOptions where
  renderer := r.path? .renderer
  timeout := (r.value? .timeout).bind Slot.milliseconds?
  stdin := (r.value? .stdin).isSome
  transpose := (r.value? .transpose).bind Slot.semitones?

/-- The command of a level that has been read. -/
def command? (r : Reading) : Option Command :=
  let song : Path := (r.path? .song).getD ⟨""⟩
  match r.level with
  | .top => none
  | .watch => some <| .watch song r.options (r.path? .output) (r.path? .log)
      ((r.value? .pane).bind Pane.ofName?) ((r.value? .debounce).bind Slot.milliseconds?)
  | .render => some <| .render song r.options (r.path? .output)
  | .info => some <| .info r.options (r.value? .directives).isSome

end Reading

/-- Reads the words behind a command's name. -/
def parseCommand (r : Reading) : List String → Except UsageFault Reading
  | [] => r.finish
  | word :: rest => do parseCommand (← r.word word) rest

/-- Joins what stands in front of the command and behind it; where both say
something, the words behind it win. -/
def combine (front behind : Reading) (command : Command) : CommandLine :=
  let value? (slot : Slot) := (behind.value? slot).or (front.value? slot)
  { colour := ((value? .colour).bind ColourChoice.ofName?).getD .auto
    config := ((value? .config).map Path.mk).getD ⟨"preview.toml"⟩
    verbose := (value? .verbose).isSome
    command }

/-- What the words behind `help` ask for: they have to name a command. -/
def helpFault : List String → UsageFault
  | [] => .help .overview
  | [word] =>
    if word = "help" then .help .help
    else
      match commandLevel? word with
      | some level => .help level.page
      | none => .unknownCommand
  | _ => .unknownCommand

/-- Reads the words in front of the command, then the rest. -/
def parseTop (r : Reading) : List String → Except UsageFault CommandLine
  | [] => do
    let r ← r.settle
    if r.given = [] then .error .nothing else .error .missingCommand
  | word :: rest =>
    if r.escaped ∨ r.waiting?.isSome then do parseTop (← r.word word) rest
    else if word = "help" then .error (helpFault rest)
    else
      match commandLevel? word with
      | none => do parseTop (← r.word word) rest
      | some level => do
        let behind ← parseCommand { level } rest
        let front ← r.settle
        match behind.command? with
        | some command => .ok (combine front behind command)
        | none => .error .missingCommand

/-- Reads a command line, without the program's name. -/
def parse (words : List String) : Except UsageFault CommandLine :=
  parseTop { level := .top } words

end SongPreview.CommandLine
