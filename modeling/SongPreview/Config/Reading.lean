import SongPreview.Config
import SongPreview.Toml.Document

/-!
# Reading configurations

A configuration file is a TOML document with four sections. A key that is absent
leaves the default of its field. A key that no section knows is named, and has no
effect.
-/

namespace SongPreview.Config

open Toml (Value)

/-- The fields of a section by their names. A section may also be written as an array
of its values in order. -/
def fields? (names : List String) : Value → Option (String → Option Value)
  | .table entries => some (Toml.find? entries)
  | .array items => some fun name => (names.idxOf? name).bind fun i => items[i]?
  | .dateTime _ => some fun _ => none
  | _ => none

/-- The field of a section, or its default. -/
def fieldOr {α : Type} (field : String → Option Value) (name : String)
    (read : Value → Option α) (default : α) : Option α :=
  match field name with
  | none => some default
  | some v => read v

/-- A string. -/
def readText : Value → Option String
  | .text s => some s
  | _ => none

/-- A path. -/
def readPath (v : Value) : Option Path :=
  (readText v).map Path.mk

/-- A truth value. -/
def readBool : Value → Option Bool
  | .boolean b => some b
  | _ => none

/-- An integer within limits. -/
def readInteger (low high : Int) : Value → Option Int
  | .integer n => if low ≤ n ∧ n ≤ high then some n else none
  | _ => none

/-- A number of milliseconds. -/
def readMilliseconds (v : Value) : Option Nat :=
  (readInteger 0 (Nat.pow 2 64 - 1) v).map Int.toNat

/-- A list of values of one kind. -/
def readList {α : Type} (read : Value → Option α) : Value → Option (List α)
  | .array items => items.mapM read
  | _ => none

/-- A value that may be left out; where it is there, it has to be of its kind. -/
def readOptional {α : Type} (read : Value → Option α) (v : Value) : Option (Option α) :=
  (read v).map some

/-- A word from a fixed list. It may also be written as the only key of a table, with
nothing in it. -/
def readWord {α : Type} (ofName? : String → Option α) : Value → Option α
  | .text s => ofName? s
  | .table [(s, .table [])] => ofName? s
  | .table [(s, .array [])] => ofName? s
  | _ => none

/-- The name under which a date appears where a table is read. -/
def dateKey : String := "$__toml_private_datetime"

/-- The definitions of the renderer: a table of strings. -/
def readDefines : Value → Option Defines
  | .table entries => do
    let items ← entries.mapM fun (name, v) => do return (name, ← readText v)
    return Defines.ofList items
  | .dateTime s => some (Defines.ofList [(dateKey, s)])
  | _ => none

/-- The fields of the section about the renderer. -/
def rendererFields : List String := ["command", "info_args", "input", "timeout_ms", "grace_ms"]

/-- The fields of the section about requests. -/
def pipelineFields : List String := ["debounce_ms"]

/-- The fields of the section about rendering. -/
def renderFields : List String :=
  ["paper", "transpose", "notation", "diagrams", "configs", "task", "defines", "extra_args"]

/-- The fields of the section about the view. -/
def previewFields : List String := ["pane", "output", "log"]

/-- The sections and their fields. -/
def sections : List (String × List String) :=
  [("renderer", rendererFields), ("pipeline", pipelineFields), ("render", renderFields),
    ("preview", previewFields)]

/-- The section about the renderer. -/
def readRenderer (v : Value) : Option Renderer := do
  let field ← fields? rendererFields v
  let default : Renderer := {}
  return {
    command := ← fieldOr field "command" (readList readText) default.command
    infoArguments := ← fieldOr field "info_args" (readList readText) default.infoArguments
    input := ← fieldOr field "input" (readWord InputMode.ofName?) default.input
    timeout := ← fieldOr field "timeout_ms" readMilliseconds default.timeout
    grace := ← fieldOr field "grace_ms" readMilliseconds default.grace }

/-- The section about requests. -/
def readPipeline (v : Value) : Option Pipeline := do
  let field ← fields? pipelineFields v
  let default : Pipeline := {}
  return { debounce := ← fieldOr field "debounce_ms" readMilliseconds default.debounce }

/-- The section about rendering. -/
def readSettings (v : Value) : Option Settings := do
  let field ← fields? renderFields v
  let default : Settings := {}
  return {
    paper := ← fieldOr field "paper" (readOptional readText) default.paper
    transpose := ← fieldOr field "transpose" (readInteger (-Nat.pow 2 31) (Nat.pow 2 31 - 1))
      default.transpose
    noteNames := ← fieldOr field "notation" (readOptional readText) default.noteNames
    diagrams := ← fieldOr field "diagrams" readBool default.diagrams
    configs := ← fieldOr field "configs" (readList readPath) default.configs
    task := ← fieldOr field "task" (readOptional readPath) default.task
    defines := ← fieldOr field "defines" readDefines default.defines
    extraArguments := ← fieldOr field "extra_args" (readList readText) default.extraArguments }

/-- The section about the view. -/
def readPreview (v : Value) : Option Preview := do
  let field ← fields? previewFields v
  let default : Preview := {}
  return {
    pane := ← fieldOr field "pane" (readWord Pane.ofName?) default.pane
    output := ← fieldOr field "output" (readOptional readPath) default.output
    log := ← fieldOr field "log" (readOptional readPath) default.log }

/-- A configuration from the entries of its document, or nothing where a value has the
wrong kind. -/
def ofEntries? (entries : List (String × Value)) : Option Config := do
  let field := Toml.find? entries
  return {
    renderer := ← fieldOr field "renderer" readRenderer {}
    pipeline := ← fieldOr field "pipeline" readPipeline {}
    render := ← fieldOr field "render" readSettings {}
    preview := ← fieldOr field "preview" readPreview {} }

/-- The keys of a section's value that the section does not know. -/
def unknownFields (names : List String) : Value → List String
  | .table entries => (entries.map Prod.fst).filter fun key => key ∉ names
  | .dateTime _ => [dateKey]
  | _ => []

/-- The outermost keys that no section knows, with the section's name in front, in the
order of the document. -/
def unknownKeys (entries : List (String × Value)) : List String :=
  entries.flatMap fun (key, v) =>
    match (sections.find? fun s => s.1 = key) with
    | none => [key]
    | some (_, names) => (unknownFields names v).map fun field => key ++ "." ++ field

/-- A configuration and the keys that nothing knows, from the text of its file. -/
def parse? (document : String) : Option (Config × List String) := do
  let entries ← Toml.read? document
  let config ← ofEntries? entries
  return (config, unknownKeys entries)

end SongPreview.Config
