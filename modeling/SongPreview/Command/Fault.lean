import SongPreview.Config.Checking
import SongPreview.Machine.Saving
import SongPreview.Query

/-!
# Failures of commands

Why a command did not do its work. A failure is told as a message and a chain of
causes, in one line or in several.
-/

namespace SongPreview

/-- Why a command did not do its work. -/
inductive CommandFault where
  | config (fault : ConfigFault)
  | unreadableSong (song : Path) (fault : Fault)
  | save (fault : SaveFault)
  /-- The renderer ended by itself without a page. -/
  | rendererExited (code : Int)
  | renderFailed
  | renderCancelled
  | info (fault : InfoFault)
  | noSong (song : Path)
  deriving DecidableEq, Repr

namespace CommandFault

/-- What was not done. -/
def message : CommandFault → String
  | config fault => fault.message
  | unreadableSong song _ => "Failed to read " ++ song.text
  | save fault => fault.message
  | rendererExited code => "render failed (renderer exited with " ++ toString code ++ ")"
  | renderFailed => "render failed"
  | renderCancelled => "render cancelled"
  | info _ => "Failed to query the renderer"
  | noSong song => "song not found: " ++ song.text

/-- Why it was not done, from the nearest cause to the first. -/
def causes : CommandFault → List String
  | config fault => fault.cause?.toList
  | unreadableSong _ fault => [fault.message]
  | save fault => [fault.cause]
  | info fault => fault.message :: fault.cause?.toList
  | _ => []

/-- The message with its causes in one line. -/
def text (f : CommandFault) : String :=
  ": ".intercalate (f.message :: f.causes)

/-- A text whose further lines are indented. -/
def indented (margin text : String) : String :=
  ("\n" ++ margin).intercalate (text.splitOn "\n")

/-- The causes with their numbers, from `n` on. -/
def numberedCauses (n : Nat) : List String → List String
  | [] => []
  | cause :: rest =>
    (Layout.padLeft 5 (toString n) ++ ": " ++ indented "       " cause) ::
      numberedCauses (n + 1) rest

/-- The message with its causes on lines of their own. Several causes are numbered. -/
def report (f : CommandFault) : String :=
  f.message ++
    match f.causes with
    | [] => ""
    | [cause] => "\n\nCaused by:\n    " ++ indented "    " cause
    | causes => "\n\nCaused by:\n" ++ "\n".intercalate (numberedCauses 0 causes)

end CommandFault

end SongPreview
