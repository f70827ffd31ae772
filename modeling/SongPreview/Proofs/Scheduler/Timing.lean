import SongPreview.Proofs.Scheduler.Runs

/-!
# The clock of a scheduler

Between two turns a scheduler sleeps. What it is told, an answer, or the end of all telling
wakes it at any time. By itself it wakes only if something waits, and not before the rest of
the delay is over. Whenever it has taken a turn it falls asleep anew, for what is left of the
delay by then.
-/

namespace SongPreview.Scheduler

variable {s : Scheduler} {t : Turn} {since now : Nat}

/-- The time that a turn is told with, if it is. -/
def Turn.time? : Turn → Option Nat
  | .event now _ => some now
  | .timer now => some now
  | _ => none

/-- A turn can come at a time, where the scheduler sleeps since another one. -/
def CanCome (s : Scheduler) (since now : Nat) : Turn → Prop
  | .answer _ => since ≤ now
  | .event time _ => time = now ∧ since ≤ now
  | .hangUp => since ≤ now
  | .timer time =>
    time = now ∧ s.debouncer.pending.isSome ∧ since + s.debouncer.sleepTime since ≤ now

/-- The clock does not go back. -/
theorem CanCome.le (h : s.CanCome since now t) : since ≤ now := by
  cases t with
  | answer result => exact h
  | event time event => exact h.2
  | hangUp => exact h
  | timer time =>
    have hslept := h.2.2
    omega

/-- A scheduler does not wake by itself before what waits has rested. -/
theorem le_of_canCome_timer {last time : Nat} (hlast : s.debouncer.lastPush = some last)
    (hle : last ≤ since) (h : s.CanCome since now (.timer time)) :
    last + s.debouncer.delay ≤ now := by
  obtain ⟨-, -, hslept⟩ := h
  simp only [Debouncer.sleepTime, Debouncer.sleepAtLeast, hlast] at hslept
  omega

namespace Run

variable {r : Run} {turns turns' : List Turn} {stop stop' : Nat}

/-- Some turns are taken by the clock, from one time to another. -/
inductive InTime : (since : Nat) → Run → List Turn → (stop : Nat) → Prop
  | sleep {since : Nat} {r : Run} : InTime since r [] since
  | wake {since now stop : Nat} {r : Run} {t : Turn} {turns : List Turn}
      (comes : r.scheduler.CanCome since now t) (onward : InTime now (r.take t) turns stop) :
      InTime since r (t :: turns) stop

/-- What is told is told at its time. -/
theorem InTime.told {event : Event} (hle : since ≤ now)
    (onward : (r.take (.event now event)).InTime now turns stop) :
    r.InTime since (.event now event :: turns) stop :=
  .wake ⟨rfl, hle⟩ onward

/-- An answer comes at any time. -/
theorem InTime.answered {result : RenderResult} (now : Nat) (hle : since ≤ now)
    (onward : (r.take (.answer result)).InTime now turns stop) :
    r.InTime since (.answer result :: turns) stop :=
  .wake hle onward

theorem InTime.le (h : r.InTime since turns stop) : since ≤ stop := by
  induction h with
  | sleep => exact Nat.le_refl _
  | wake comes _ ih => exact Nat.le_trans comes.le ih

theorem InTime.append (h : r.InTime since turns stop)
    (h' : (r.after turns).InTime stop turns' stop') : r.InTime since (turns ++ turns') stop' := by
  induction h with
  | sleep => exact h'
  | wake comes _ ih => exact .wake comes (ih h')

/-- What is taken by the clock is taken by the clock up to every turn. -/
theorem InTime.split (h : r.InTime since (turns ++ turns') stop) :
    ∃ mid, r.InTime since turns mid ∧ (r.after turns).InTime mid turns' stop := by
  induction turns generalizing r since with
  | nil => exact ⟨since, .sleep, h⟩
  | cons t turns ih =>
    cases h with
    | wake comes onward =>
      obtain ⟨mid, hfirst, hrest⟩ := ih onward
      exact ⟨mid, .wake comes hfirst, hrest⟩

end Run

end SongPreview.Scheduler
