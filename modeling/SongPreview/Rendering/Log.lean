import SongPreview.Child
import SongPreview.Diagnostic.Reading
import SongPreview.Utf8

/-!
# The log of a rendering

The renderer's error output is read piece by piece as it arrives. Every line that is
complete becomes a diagnostic, unless it is blank; what follows the last line break
becomes one when the pipe is closed.
-/

namespace SongPreview.Rendering

/-- The diagnostic of a line, or nothing if the line is blank. -/
def lineDiagnostic (source : String) (time : Int) (line : List UInt8) : Option Diagnostic :=
  let text := String.ofList (Utf8.decode line)
  if Text.isBlankString text then none else some (.ofLine source text time)

/-- A log that is being read: the diagnostics so far, the latest first, and the bytes
after the last line break, the latest first. -/
structure LogReader where
  found : List Diagnostic := []
  partialLine : List UInt8 := []
  deriving DecidableEq

namespace LogReader

/-- Takes in the next byte. -/
def take (source : String) (time : Int) (r : LogReader) (b : UInt8) : LogReader :=
  if b = 10 then
    ⟨(lineDiagnostic source time (b :: r.partialLine).reverse).toList ++ r.found, []⟩
  else { r with partialLine := b :: r.partialLine }

/-- Takes in the bytes that arrived at once. -/
def feed (source : String) (time : Int) (r : LogReader) (bytes : List UInt8) : LogReader :=
  bytes.foldl (take source time) r

/-- Takes in the end of the pipe. -/
def close (source : String) (time : Int) (r : LogReader) : LogReader :=
  if r.partialLine = [] then r
  else ⟨(lineDiagnostic source time r.partialLine.reverse).toList ++ r.found, []⟩

/-- The diagnostics in their order. -/
def log (r : LogReader) : List Diagnostic :=
  r.found.reverse

end LogReader

/-- The log of some chunks, with or without the end of the pipe. -/
def readLog (source : String) (time : Int) (chunks : List Chunk) (closed : Bool) :
    List Diagnostic :=
  let reader := chunks.foldl (fun r c => r.feed source time c.bytes.toList) ({} : LogReader)
  (if closed then reader.close source time else reader).log

/-- The log of a course up to a time. -/
def logAt (source : String) (time : Int) (course : Course) (until? : Nat) : List Diagnostic :=
  readLog source time (Course.upTo until? course.errors)
    (course.errorsEnd.any fun stop => stop ≤ until?)

end SongPreview.Rendering
