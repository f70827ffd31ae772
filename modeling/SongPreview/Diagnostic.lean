import SongPreview.Layout

/-!
# Diagnostics

A diagnostic is one remark about a song, made by the renderer or by the program
itself. This file holds its parts and the forms in which logs are shown: a line
of a saved log, a line under a status, and a summary of a long log.
-/

namespace SongPreview

/-- How serious a diagnostic is. -/
inductive Severity where
  | notice
  | warning
  | error
  deriving DecidableEq, Repr

namespace Severity

/-- The word that names a severity. -/
def label : Severity → String
  | notice => "notice"
  | warning => "warning"
  | error => "error"

/-- Severities in increasing order. -/
def rank : Severity → Nat
  | notice => 0
  | warning => 1
  | error => 2

/-- The more serious of two. -/
def worse (a b : Severity) : Severity :=
  if a.rank < b.rank then b else a

end Severity

/-- One remark, with the line of the song it is about, if one was named. The time
is in seconds since the epoch. -/
structure Diagnostic where
  severity : Severity
  message : String
  line : Option Nat
  time : Int
  deriving DecidableEq, Repr

namespace Diagnostic

/-- A remark about no line in particular. -/
def unattributed (severity : Severity) (message : String) (time : Int) : Diagnostic :=
  ⟨severity, message, none, time⟩

/-- The message, behind its line number if there is one. -/
def text (d : Diagnostic) : String :=
  match d.line with
  | some n => "line " ++ toString n ++ ": " ++ d.message
  | none => d.message

/-- The severity in its column, and the text. -/
def row (d : Diagnostic) : String :=
  Layout.padRight 7 d.severity.label ++ " " ++ d.text

/-- A line of a saved log. -/
def logLine (d : Diagnostic) : String :=
  Layout.clockTime d.time ++ " " ++ d.row ++ "\n"

/-- A line under a status. -/
def statusLine (d : Diagnostic) : String :=
  "  " ++ d.row

/-- A log as it is saved to a file. -/
def formatLog (log : List Diagnostic) : String :=
  String.join (log.map logLine)

/-- How many diagnostics a summary shows. -/
def summaryLimit : Nat := 10

/-- The first diagnostics of a log, and how many it leaves out. -/
def summarize (log : List Diagnostic) : String :=
  let shown := (log.take summaryLimit).map statusLine
  let more :=
    if summaryLimit < log.length then
      ["  ... and " ++ toString (log.length - summaryLimit) ++ " more"]
    else []
  "\n".intercalate (shown ++ more)

/-- The most serious severity of a log. -/
def worst? (log : List Diagnostic) : Option Severity :=
  log.foldl (fun seen d => some (seen.elim d.severity fun s => s.worse d.severity)) none

/-- The diagnostics about one line. -/
def aboutLine (log : List Diagnostic) (n : Nat) : List Diagnostic :=
  log.filter fun d => d.line = some n

end Diagnostic

end SongPreview
