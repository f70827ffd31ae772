import SongPreview.Colour
import SongPreview.Diagnostic

/-!
# Terminal output

Lines of the log carry the name of the part that writes them in front. The status
block shows how the last rendering came out: printing it again goes up over the
lines it had, clears the screen from there, and writes the new block in their place.
-/

namespace SongPreview.Terminal

/-- The colour of a part's name; notices are dimmed instead. -/
def tag (name : String) : String :=
  let text := "[" ++ name ++ "]"
  match String.ofList (name.toList.map Char.toLower) with
  | "render" => Colour.paintBold .brightBlue text
  | "watch" => Colour.paintBold .brightGreen text
  | "error" => Colour.paintBold .brightRed text
  | "warning" => Colour.paintBold .brightMagenta text
  | "notice" => Colour.paint .dimmed text
  | _ => Colour.paintBold .brightYellow text

/-- A line of the log. -/
def logLine (name message : String) : String :=
  Colour.sequence "" "K" ++ tag name ++ " " ++ message ++ "\n"

/-- A diagnostic as a line of the log. -/
def diagnosticLine (d : Diagnostic) : String :=
  logLine d.severity.label d.text

/-- A line of the log that is written only if more is wanted. -/
def debugLine (verbose : Bool) (name message : String) : String :=
  if verbose then logLine name message else ""

/-- The mark in front of a status. -/
inductive Mark where
  | busy
  | good
  | doubtful
  | bad
  | quiet
  deriving DecidableEq, Repr

/-- A mark with its colour and the blank behind it. -/
def Mark.text : Mark → String
  | busy => Colour.paint .dimmed "…" ++ " "
  | good => Colour.paint .green "✓" ++ " "
  | doubtful => Colour.paint .yellow "⚠" ++ " "
  | bad => Colour.paint .red "✗" ++ " "
  | quiet => ""

/-- What the status block shows. -/
inductive StatusReport where
  /-- A rendering goes on. -/
  | rendering (message : String)
  | success (message : String)
  /-- Nothing needs to be rendered. -/
  | unchanged (message : String)
  | error (summary detail : String)
  | warning (message : String)
  deriving DecidableEq, Repr

namespace StatusReport

/-- The mark of a report. -/
def mark : StatusReport → Mark
  | rendering _ => .busy
  | success _ => .good
  | unchanged _ => .quiet
  | error .. => .bad
  | warning _ => .doubtful

/-- The message of a report. Its details stand on lines of their own. -/
def message : StatusReport → String
  | rendering message | unchanged message => Colour.paint .dimmed message
  | success message | warning message => message
  | error summary detail => if detail = "" then summary else summary ++ "\n" ++ detail

end StatusReport

/-- How many lines the last status block has. -/
structure StatusBlock where
  lines : Nat := 0
  deriving DecidableEq, Repr

namespace StatusBlock

/-- How many lines a text takes. -/
def lineCount (text : String) : Nat :=
  text.toList.count '\n' + 1

/-- Goes up over the last block and clears it. The number of lines goes out in
sixteen bits. -/
def clearing (b : StatusBlock) : String :=
  if b.lines = 0 then ""
  else Colour.sequence (toString (b.lines % 65536)) "A" ++ Colour.sequence "" "J"

/-- Prints a report over the last block, at a time of day. -/
def display (b : StatusBlock) (clock : String) (report : StatusReport) : String × StatusBlock :=
  (b.clearing ++ Colour.paint .dimmed ("[" ++ clock ++ "]") ++ " " ++ report.mark.text ++
      report.message ++ "\n",
    ⟨lineCount report.message⟩)

end StatusBlock

end SongPreview.Terminal
