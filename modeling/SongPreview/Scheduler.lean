import SongPreview.Scene
import SongPreview.Scheduler.Debouncer

/-!
# Scheduling renderings

The scheduler decides when a document is rendered. A change rests in the debouncer;
when it is due, it becomes a request with a new generation, which cancels the
rendering before it. A change that leads back to what was last accepted is dropped.
Every step gives the new state and what is to be done, in order.
-/

namespace SongPreview

/-- What the scheduler is told. -/
inductive Event where
  /-- The text or the settings of the song have changed. -/
  | edit (document : Document)
  | setPane (pane : Pane)
  /-- The latest document is to be rendered again, even if nothing changed. -/
  | refresh
  | clearLog
  | notice (d : Diagnostic)
  | shutdown
  deriving DecidableEq, Repr

/-- What the scheduler remarks on its own doings. -/
inductive Remark where
  | shuttingDown
  | backToAccepted
  | superseded (generation : Nat)
  | needsNoPreview (generation : Nat)
  | started (generation : Nat)
  | stale (generation : Nat)
  | windingDown (generation : Nat)
  deriving DecidableEq, Repr

/-- The wording of a remark. -/
def Remark.text : Remark → String
  | shuttingDown => "shutting down"
  | backToAccepted => "back to accepted state, pending request dropped"
  | superseded g => "generation " ++ toString g ++ " superseded"
  | needsNoPreview g => "generation " ++ toString g ++ " needs no preview"
  | started g => "generation " ++ toString g ++ " started"
  | stale g => "dropped result of stale generation " ++ toString g
  | windingDown g => "generation " ++ toString g ++ " still winding down"

/-- What is to be done after a step. -/
inductive Effect where
  /-- Observers are to see a new state. -/
  | publish (scene : Scene)
  /-- The rendering of a generation is to be cancelled. -/
  | cancel (generation : Nat)
  /-- A request is to be handed to the renderer. -/
  | start (request : Request)
  | remark (r : Remark)
  deriving DecidableEq

/-- A document that waits to be rendered, and what it would be accepted as. -/
structure Pending where
  document : Document
  pane : Pane
  fingerprint : Fingerprint
  deriving DecidableEq, Repr

/-- The state of scheduling one song. -/
structure Scheduler where
  scene : Scene
  debouncer : Debouncer Pending
  /-- The latest document. -/
  latest : Option Document
  /-- The fingerprint of the last accepted request. -/
  accepted : Option Fingerprint
  /-- The last generation that was given out. -/
  generation : Nat
  /-- The generation of the rendering that goes on. -/
  inFlight : Option Nat

namespace Scheduler

/-- A scheduler that goes on from a scene. -/
def ofScene (scene : Scene) (debounce : Nat) : Scheduler where
  scene
  debouncer := Debouncer.new debounce
  latest := none
  accepted := none
  generation := scene.generation
  inFlight := none

/-- The scheduler of a new scene. -/
def new (source : Source) (pane : Pane) (debounce : Nat) : Scheduler :=
  ofScene (Scene.new source pane) debounce

/-- How long a cancelled rendering is waited for at the end, in milliseconds. -/
def shutdownGrace : Nat := 2000

/-- Lets a document wait in place of any other, unless it is what was last accepted
and nothing forces it: then nothing waits any more. -/
def consider (now : Nat) (document : Document) (pane : Pane) (force : Bool) (s : Scheduler) :
    Scheduler × List Effect :=
  let fingerprint := document.fingerprint pane
  if force = false ∧ s.accepted = some fingerprint then
    ({ s with debouncer := s.debouncer.clear },
      if s.debouncer.pending.isSome then [.remark .backToAccepted] else [])
  else
    ({ s with debouncer := s.debouncer.push now ⟨document, pane, fingerprint⟩ }, [])

/-- Considers the latest document, if there is one. -/
def considerLatest (now : Nat) (force : Bool) (s : Scheduler) : Scheduler × List Effect :=
  match s.latest with
  | some document => s.consider now document s.scene.pane force
  | none => (s, [])

/-- Changes the scene and publishes it. -/
def revise (change : Scene → Scene) (s : Scheduler) : Scheduler × List Effect :=
  let scene := change s.scene
  ({ s with scene }, [.publish scene])

/-- Handles what the scheduler is told. The end is no change of the state. -/
def dispatch (now : Nat) (event : Event) (s : Scheduler) : Scheduler × List Effect :=
  match event with
  | .edit document => considerLatest now false { s with latest := some document }
  | .setPane pane =>
    if pane = s.scene.pane then (s, [])
    else
      let (s, published) := s.revise fun scene => { scene with pane }
      let (s, considered) := s.considerLatest now false
      (s, published ++ considered)
  | .refresh => s.considerLatest now true
  | .clearLog => s.revise Scene.clearLog
  | .notice d => s.revise (Scene.pushNotice d)
  | .shutdown => (s, [.remark .shuttingDown])

/-- Gives the next generation to a document. -/
def accept (p : Pending) (s : Scheduler) : Scheduler × List Effect :=
  let generation := s.generation + 1
  let superseded : List Effect :=
    match s.inFlight with
    | some old => [.cancel old, .remark (.superseded old)]
    | none => []
  let s := { s with generation, accepted := some p.fingerprint, inFlight := none }
  if p.pane.showsPreview then
    let (s, published) := s.revise (Scene.begin generation p.document.source)
    ({ s with inFlight := some generation },
      superseded ++ published ++ [.start ⟨generation, p.document, p.pane⟩,
        .remark (.started generation)])
  else
    let (s, published) := s.revise (Scene.park generation p.document.source)
    (s, superseded ++ published ++ [.remark (.needsNoPreview generation)])

/-- Accepts the waiting document once it is due. -/
def expire (now : Nat) (s : Scheduler) : Scheduler × List Effect :=
  match s.debouncer.takeIfReady now with
  | (some p, debouncer) => accept p { s with debouncer }
  | (none, _) => (s, [])

/-- Takes a result of the renderer. Only one of the current generation counts. -/
def complete (result : RenderResult) (s : Scheduler) : Scheduler × List Effect :=
  if result.generation ≠ s.generation then (s, [.remark (.stale result.generation)])
  else
    let s := if s.inFlight = some result.generation then { s with inFlight := none } else s
    match s.scene.reconcile? result with
    | some scene => ({ s with scene }, [.publish scene])
    | none => (s, [])

/-- Drops what waits and cancels what goes on, at the end. -/
def stop (s : Scheduler) : Scheduler × List Effect :=
  ({ s with debouncer := s.debouncer.clear, inFlight := none },
    s.inFlight.toList.map .cancel)

end Scheduler

end SongPreview
