import SongPreview.CommandLine.Parsing
import SongPreview.Layout

/-!
# Help

What the program says about its own use. A page of help has a line on its subject, a
line on how to call it, and sections of entries: each entry has what to write on the left
and what it means on the right, and all meanings of a section begin in one column.
-/

namespace SongPreview

namespace CommandLine

/-- The name of the program with its version. -/
def versionText : String := "chordpro-preview 0.1.0\n"

namespace Slot

/-- What is written on the left of an option's entry. -/
def entry (slot : Slot) : String :=
  let beginning :=
    match slot.short? with
    | some c => "-" ++ String.ofList [c] ++ ", --"
    | none => "    --"
  let value := if slot.takesValue then " <" ++ slot.long.toUpper ++ ">" else ""
  beginning ++ slot.long ++ value

/-- What is written on the right of an option's entry. -/
def meaning : Slot → String
  | colour => "Control colored output (auto, always, never) [default: auto] " ++
      "[possible values: auto, always, never]"
  | config => "Config file path (default: preview.toml) [default: preview.toml]"
  | verbose => "Enable verbose output for debugging"
  | help => "Print help"
  | version => "Print version"
  | renderer => "Renderer executable (replaces the configured command)"
  | timeout => "Renderer timeout in milliseconds"
  | stdin => "Pass the song on standard input instead of a temporary file"
  | transpose => "Transpose by this many semitones"
  | output => "Output PDF path (default: <song>.pdf)"
  | log => "Export the message log to this file after every render"
  | pane => "Pane layout; \x60editor-only\x60 suspends rendering " ++
      "[possible values: editor-only, editor-and-preview, preview-only]"
  | debounce => "Quiet period before a change is rendered, in milliseconds"
  | directives => "List the directives the renderer understands"
  | song => "Song file to render"

end Slot

/-- The meaning of an option or argument at a level: where a song is watched, it and
its output are previews. -/
def Level.meaning (level : Level) (slot : Slot) : String :=
  match level, slot with
  | .watch, .song => "Song file to preview"
  | .watch, .output => "Preview PDF path (default: <song>.pdf)"
  | _, _ => slot.meaning

/-- A section of help: a heading over entries. -/
def listing? (heading : String) (entries : List (String × String)) : Option String :=
  if entries = [] then none
  else
    let width := (entries.map fun entry => entry.1.length).foldl max 0
    some <| heading ++ ":\n" ++ String.join (entries.map fun (left, right) =>
      "  " ++ Layout.padRight (width + 2) left ++ right ++ "\n")

/-- What a command does. -/
def Level.summary : Level → String
  | top => "live PDF preview for ChordPro songs - re-renders on every save, " ++
      "never shows a stale result"
  | watch => "Watch a song and re-render the preview on every change"
  | render => "Render a song once and exit"
  | info => "Show renderer version, resources and modules"

/-- What help as a command does. -/
def helpSummary : String := "Print this message or the help of the given subcommand(s)"

/-- The commands with what they do. -/
def commandEntries : List (String × String) :=
  [("watch", Level.watch.summary ++ " [aliases: w]"),
    ("render", Level.render.summary ++ " [aliases: r]"),
    ("info", Level.info.summary ++ " [aliases: i]"),
    ("help", helpSummary)]

/-- A page of help: its subject, how to call it, and its sections. -/
def pageText (summary call : String) (sections : List (Option String)) : String :=
  "\n".intercalate <|
    (summary ++ "\n") :: ("Usage: chordpro-preview" ++ call ++ "\n") :: sections.filterMap id

/-- The page of help about a level, with what is written behind the program's name
to get there. -/
def Level.help (level : Level) (call : String) : String :=
  let commands := if level = .top then commandEntries else []
  let songs := if level.takesSong then [("<FILE>", level.meaning .song)] else []
  pageText level.summary call
    [listing? "Commands" commands, listing? "Arguments" songs,
      listing? "Options" (level.slots.map fun slot => (slot.entry, level.meaning slot))]

end CommandLine

/-- A page of help in full. -/
def HelpPage.text : HelpPage → String
  | overview => CommandLine.Level.top.help " [OPTIONS] <COMMAND>"
  | watch => CommandLine.Level.watch.help " watch [OPTIONS] <FILE>"
  | render => CommandLine.Level.render.help " render [OPTIONS] <FILE>"
  | info => CommandLine.Level.info.help " info [OPTIONS]"
  | help => CommandLine.pageText CommandLine.helpSummary " help [COMMAND]..."
      [CommandLine.listing? "Arguments" [("[COMMAND]...", "Print help for the subcommand(s)")]]

end SongPreview
