import SongPreview.Scheduler

/-!
# Rehearsals

A rehearsal runs a scheduler on a clock that moves only when it is told to, with a
renderer whose answers are laid down beforehand. It shows in which order requests
are made, cancelled and finished, and what an observer sees.
-/

namespace SongPreview

/-- How one request is going to be answered. Times are in milliseconds. -/
structure Part where
  delay : Nat := 13
  /-- Whether the renderer goes on after it was cancelled. -/
  stubborn : Bool := false
  /-- How long it takes from the cancellation to the cancelled result. -/
  windDown : Nat := 0
  /-- The outcome if it is not cancelled; a success without a page shows the text. -/
  outcome : Outcome ⊕ Unit := .inr ()
  log : List Diagnostic := []
  /-- The generation that the answer names, if not that of the request. -/
  answerGeneration : Option Nat := none

/-- A rendering that goes on. -/
structure Performance where
  request : Request
  part : Part
  startedAt : Nat
  cancelledAt : Option Nat := none

/-- What the renderer does, in the order in which it happens. -/
inductive Call where
  | start (request : Request)
  | cancelled (generation : Nat)
  | finish (generation : Nat)

/-- Whether the scheduler still takes events. -/
inductive Stage where
  | running
  /-- It waits for the rendering of a generation to end, up to a time. -/
  | closing (generation deadline : Nat)
  | stopped
  deriving DecidableEq

/-- A rehearsal at one moment. -/
structure Rehearsal where
  now : Nat := 0
  scheduler : Scheduler
  stage : Stage := .running
  /-- When the scheduler last handled anything. -/
  handledAt : Nat := 0
  /-- Events that were sent and are not handled yet. -/
  queue : List Event := []
  /-- The parts still to be played; the last is played again and again. -/
  parts : List Part
  performances : List Performance := []
  published : Bool := false
  calls : List Call := []
  remarks : List Remark := []

namespace Performance

/-- When a rendering ends, and whether as a cancelled one. -/
def ending (p : Performance) : Nat × Bool :=
  let finish := p.startedAt + p.part.delay
  match p.cancelledAt with
  | some t => if p.part.stubborn ∨ finish < t then (finish, false) else (t + p.part.windDown, true)
  | none => (finish, false)

/-- What a rendering answers at its end. -/
def result (p : Performance) : RenderResult :=
  let generation := p.part.answerGeneration.getD p.request.generation
  if p.ending.2 then ⟨generation, .cancelled, []⟩
  else
    let outcome :=
      match p.part.outcome with
      | .inl outcome => outcome
      | .inr () => .success p.request.document.text.toUTF8
    ⟨generation, outcome, p.part.log⟩

end Performance

namespace Rehearsal

/-- The part of the next request, and those that are left. -/
def nextPart : List Part → Part × List Part
  | [] => ({}, [])
  | [part] => (part, [part])
  | part :: rest => (part, rest)

/-- Does what a step of the scheduler asks for. -/
def perform (r : Rehearsal) : Effect → Rehearsal
  | .publish _ => { r with published := true }
  | .cancel generation =>
    { r with
      performances := r.performances.map fun p =>
        if p.request.generation = generation ∧ p.cancelledAt.isNone then
          { p with cancelledAt := some r.now }
        else p }
  | .start request =>
    let (part, parts) := nextPart r.parts
    { r with
      parts
      performances := r.performances ++ [{ request, part, startedAt := r.now }]
      calls := r.calls ++ [.start request] }
  | .remark remark => { r with remarks := r.remarks ++ [remark] }

/-- Makes a step of the scheduler. -/
def step (r : Rehearsal) (f : Scheduler → Scheduler × List Effect) : Rehearsal :=
  let (scheduler, effects) := f r.scheduler
  effects.foldl perform { r with scheduler, handledAt := r.now }

/-- Brings the scheduler to its end, at once if no rendering goes on. -/
def close (r : Rehearsal) : Rehearsal :=
  let going := r.scheduler.inFlight.filter fun generation =>
    r.performances.any fun p => p.request.generation = generation
  let r := r.step Scheduler.stop
  match going with
  | some generation =>
    { r with stage := .closing generation (r.now + Scheduler.shutdownGrace), queue := [] }
  | none => { r with stage := .stopped, queue := [] }

/-- Handles the events that were sent. Behind the end they are dropped. -/
def handle (r : Rehearsal) (event : Event) : Rehearsal :=
  if r.stage ≠ .running then r
  else
    let r := r.step (Scheduler.dispatch r.now event)
    if event = .shutdown then r.close else r

/-- Handles everything in the queue. -/
def drain (r : Rehearsal) : Rehearsal :=
  r.queue.foldl handle { r with queue := [] }

/-- Ends a rendering. Its result is lost if the scheduler does not run any more. -/
def finish (r : Rehearsal) (p : Performance) : Rehearsal :=
  let generation := p.request.generation
  let call : Call := if p.ending.2 then .cancelled generation else .finish generation
  let r := { r with
    performances := r.performances.filter fun q => q.request.generation ≠ generation
    calls := r.calls ++ [call] }
  match r.stage with
  | .running => r.step (Scheduler.complete p.result)
  | .closing awaited _ => if awaited = generation then { r with stage := .stopped } else r
  | .stopped => r

/-- The rendering that ends first. -/
def nextEnding (performances : List Performance) : Option Performance :=
  performances.foldl
    (fun first p =>
      match first with
      | none => some p
      | some q => if p.ending.1 < q.ending.1 then some p else some q)
    none

/-- When the scheduler does something by itself. -/
def nextWake (r : Rehearsal) : Option Nat :=
  match r.stage with
  | .running =>
    if r.scheduler.debouncer.pending.isSome then
      some (r.handledAt + r.scheduler.debouncer.sleepTime r.handledAt)
    else none
  | .closing _ deadline => some deadline
  | .stopped => none

/-- Lets the scheduler do what it does by itself. -/
def wake (r : Rehearsal) : Rehearsal :=
  match r.stage with
  | .closing generation _ =>
    { r with stage := .stopped, remarks := r.remarks ++ [.windingDown generation] }
  | _ => r.step (Scheduler.expire r.now)

/-- Lets everything happen that is due up to a time. Endings come before what the
scheduler does by itself. -/
def runUntil (target : Nat) : (fuel : Nat) → Rehearsal → Rehearsal
  | 0, r => r
  | fuel + 1, r =>
    let ending := nextEnding r.performances
    let endTime := (ending.map fun p => p.ending.1).getD (target + 1)
    let wakeTime := r.nextWake.getD (target + 1)
    match ending with
    | some p =>
      if endTime ≤ wakeTime ∧ endTime ≤ target then
        runUntil target fuel (finish { r with now := max r.now endTime } p)
      else if wakeTime ≤ target then
        runUntil target fuel (wake { r with now := max r.now wakeTime })
      else r
    | none =>
      if wakeTime ≤ target then runUntil target fuel (wake { r with now := max r.now wakeTime })
      else r

/-- A bound on the number of things that can happen before more is sent: every
rendering ends once, one more may begin, and the scheduler wakes between them. -/
def bound (r : Rehearsal) : Nat :=
  2 * r.performances.length + 6

/-- Lets everything happen that can happen now. -/
def settle (r : Rehearsal) : Rehearsal :=
  let r := r.drain
  runUntil r.now r.bound r

/-- Lets time pass. -/
def wait (ms : Nat) (r : Rehearsal) : Rehearsal :=
  let r := r.drain
  let target := r.now + ms
  { runUntil target r.bound r with now := target }

/-- Sends an event, if the scheduler still takes any. -/
def send (event : Event) (r : Rehearsal) : Option Rehearsal :=
  if r.stage = .stopped then none else some { r with queue := r.queue ++ [event] }

/-- Ends the scheduler and waits until it has ended. -/
def closeAndWait (r : Rehearsal) : Rehearsal :=
  let r := ((r.send .shutdown).getD r).settle
  match r.stage with
  | .closing generation deadline =>
    let ending := (r.performances.find? fun p => p.request.generation = generation).map
      fun p => p.ending.1
    let target := min deadline (ending.getD deadline)
    { runUntil target r.bound r with now := target }
  | _ => r

/-- Forgets what has been shown. -/
def shown (r : Rehearsal) : Rehearsal :=
  { r with published := false, calls := [], remarks := [] }

end Rehearsal

end SongPreview
