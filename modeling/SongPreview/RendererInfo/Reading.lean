import SongPreview.Json.Record
import SongPreview.RendererInfo

/-!
# Reading what the renderer says

The renderer answers with an object, perhaps behind a banner. Every field may be left
out.
-/

namespace SongPreview.RendererInfo

open Json (Field Reader)

/-- The version of a program. -/
def Component.reader : Reader Component :=
  .record "Component" [
    ⟨"version", fun c => return { c with version := ← .text }⟩,
    ⟨"aux", fun c => return { c with aux := ← .textOrNull }⟩] {}

/-- The language that the renderer runs on. -/
def Platform.reader : Reader Platform :=
  .record "Perl" [
    ⟨"version", fun p => return { p with version := ← .textOrNull }⟩,
    ⟨"path", fun p => return { p with path := ← .textOrNull }⟩] {}

/-- The renderer and what it runs on. -/
def General.reader : Reader General :=
  .record "General" [
    ⟨"chordpro", fun g => return { g with core := ← Component.reader }⟩,
    ⟨"perl", fun g => return { g with platform := ← Platform.reader }⟩,
    ⟨"abc", fun g => return { g with abc := ← .textOrNull }⟩] {}

/-- A library that the renderer uses. -/
def Module.reader : Reader Module :=
  .record "Module" [
    ⟨"name", fun m => return { m with name := ← .text }⟩,
    ⟨"version", fun m => return { m with version := ← .text }⟩] {}

/-- A directory of resources. -/
def resourceReader : Reader String :=
  .record "Resource" [⟨"path", fun _ => .text⟩] ""

/-- What the renderer says about itself. -/
def reader : Reader RendererInfo :=
  .record "RendererInfo" [
    ⟨"general", fun i => return { i with general := ← General.reader }⟩,
    ⟨"resources", fun i => return { i with resources := ← .list resourceReader }⟩,
    ⟨"modules", fun i => return { i with modules := ← .list Module.reader }⟩] {}

/-- The object in what the renderer printed: the text from the first brace on, or all of
it if there is none. -/
def objectText (printed : String) : String :=
  let text := printed.toList
  if '\x7b' ∈ text then String.ofList (text.dropWhile (· ≠ '\x7b')) else printed

/-- Reads what the renderer printed. -/
def parse (printed : String) : Except Json.Stop RendererInfo :=
  Reader.whole reader (objectText printed)

end SongPreview.RendererInfo
