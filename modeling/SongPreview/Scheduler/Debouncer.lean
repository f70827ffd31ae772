/-!
# Debouncing

A debouncer holds the latest request until it has rested for a while. Every new
request takes the place of the one before and starts the rest anew. Times are in one
unit, whichever it is; who sleeps in milliseconds counts in milliseconds.
-/

namespace SongPreview

/-- A request that rests, and when it was last renewed. -/
structure Debouncer (α : Type) where
  delay : Nat
  pending : Option α
  lastPush : Option Nat
  deriving DecidableEq, Repr

namespace Debouncer

variable {α : Type}

/-- A debouncer that holds nothing. -/
def new (delay : Nat) : Debouncer α :=
  ⟨delay, none, none⟩

/-- Takes a request in place of any other. -/
def push (now : Nat) (request : α) (d : Debouncer α) : Debouncer α :=
  { d with pending := some request, lastPush := some now }

/-- Drops the request. -/
def clear (d : Debouncer α) : Debouncer α :=
  { d with pending := none, lastPush := none }

/-- Whether a request has rested long enough. -/
def isReady (now : Nat) (d : Debouncer α) : Bool :=
  match d.lastPush with
  | some last => d.delay ≤ now - last && d.pending.isSome
  | none => false

/-- The request that has rested long enough, if there is one, and the debouncer
without it. -/
def takeIfReady (now : Nat) (d : Debouncer α) : Option α × Debouncer α :=
  if d.isReady now then (d.pending, d.clear) else (none, d)

/-- How long to sleep before the request is due, at least for a given time. -/
def sleepAtLeast (least now : Nat) (d : Debouncer α) : Nat :=
  match d.lastPush with
  | some last => max (d.delay - (now - last)) least
  | none => d.delay

/-- How long to sleep before the request is due, at least a millisecond, where times are in
milliseconds. -/
def sleepTime (now : Nat) (d : Debouncer α) : Nat :=
  d.sleepAtLeast 1 now

end Debouncer

end SongPreview
