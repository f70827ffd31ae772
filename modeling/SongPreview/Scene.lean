import SongPreview.Bytes
import SongPreview.Diagnostic
import SongPreview.Document

/-!
# Scenes

A scene is what an observer of one song sees: the last good page, the log, and how
the rendering stands. This file holds its parts and the changes that can be made to
it. A result is taken over only if it answers the latest accepted request.
-/

namespace SongPreview

/-- How the rendering of a song stands. -/
inductive Status where
  | idle
  | rendering
  | succeeded
  | failed
  deriving DecidableEq, Repr

/-- What came of a rendering. -/
inductive Outcome where
  /-- The complete page. -/
  | success (artifact : ByteArray)
  /-- No page. The exit code is absent if the renderer did not exit by itself. -/
  | failed (exitCode : Option Int)
  | cancelled
  deriving DecidableEq

/-- One accepted request. -/
structure Request where
  generation : Nat
  document : Document
  pane : Pane
  deriving DecidableEq, Repr

/-- The answer to the request of a generation. -/
structure RenderResult where
  generation : Nat
  outcome : Outcome
  log : List Diagnostic
  deriving DecidableEq

/-- A diagnostic of a rendering that still goes on. -/
structure LiveDiagnostic where
  generation : Nat
  diagnostic : Diagnostic
  deriving DecidableEq, Repr

/-- What an observer of a song sees. -/
structure Scene where
  /-- The generation of the latest accepted request, zero before the first. -/
  generation : Nat
  /-- The last good page. -/
  artifact : Option ByteArray
  log : List Diagnostic
  status : Status
  pane : Pane
  source : Source
  deriving DecidableEq

namespace Scene

/-- A scene before anything was rendered. -/
def new (source : Source) (pane : Pane) : Scene :=
  ⟨0, none, [], .idle, pane, source⟩

/-- A request was handed to the renderer. -/
def begin (generation : Nat) (source : Source) (s : Scene) : Scene :=
  { s with generation, source, status := .rendering }

/-- A request was accepted that needs no rendering. -/
def park (generation : Nat) (source : Source) (s : Scene) : Scene :=
  { s with generation, source, status := .idle }

/-- Takes over a result. Nothing comes of a result of another generation, and of one
that was cancelled. -/
def reconcile? (result : RenderResult) (s : Scene) : Option Scene :=
  if result.generation ≠ s.generation then none
  else
    match result.outcome with
    | .success artifact =>
      some { s with artifact := some artifact, log := result.log, status := .succeeded }
    | .failed _ => some { s with artifact := none, log := result.log, status := .failed }
    | .cancelled => none

/-- Empties the log. -/
def clearLog (s : Scene) : Scene :=
  { s with log := [] }

/-- Adds a remark to the log. -/
def pushNotice (d : Diagnostic) (s : Scene) : Scene :=
  { s with log := s.log ++ [d] }

end Scene

end SongPreview
