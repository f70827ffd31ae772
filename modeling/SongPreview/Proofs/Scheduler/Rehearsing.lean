import SongPreview.Proofs.Scheduler.Current
import SongPreview.Proofs.Scheduler.Timing
import SongPreview.Rehearsal

/-!
# Rehearsals are runs

A rehearsal lets a scheduler take turns on its own clock, with a renderer of its own and
with events that are sent ahead. Whatever it does, its scheduler only takes turns, and it takes
them by the clock, so that every moment of a rehearsal is a moment of a run, and what holds of
all runs holds of it.
-/

namespace SongPreview.Rehearsal

open Scheduler (Run Turn)

variable {r : Rehearsal} {run : Run}

/-- A rehearsal has come to where a run has come. -/
structure At (r : Rehearsal) (run : Run) : Prop where
  scheduler : run.scheduler = r.scheduler
  running : run.running = true ↔ r.stage = .running
  /-- Nothing is handled ahead of the clock. -/
  handled : r.stage = .running → r.handledAt ≤ r.now

/-- A rehearsal goes on from a run that took its last turn at a time: some turns, by the clock,
lead to where the rehearsal has come. -/
def Follows (r : Rehearsal) (run : Run) (since : Nat) : Prop :=
  ∃ turns, run.InTime since turns r.handledAt ∧ r.At (run.after turns)

theorem At.follows {since : Nat} (h : r.At run) (hsame : r.handledAt = since) :
    r.Follows run since :=
  ⟨[], hsame ▸ .sleep, h⟩

/-- What follows a rehearsal that has come to the end of some turns follows the run. -/
theorem Follows.of_after {turns : List Turn} {since mid : Nat} (h : r.Follows (run.after turns) mid)
    (hfirst : run.InTime since turns mid) : r.Follows run since := by
  obtain ⟨rest, htime, hat⟩ := h
  exact ⟨turns ++ rest, hfirst.append htime, by rwa [Run.after_append]⟩

/-! ### One step of the scheduler -/

/-- What the scheduler asks for changes neither the scheduler nor the stage nor the clock. -/
theorem foldl_perform (effects : List Effect) (r : Rehearsal) :
    (effects.foldl perform r).scheduler = r.scheduler ∧
      (effects.foldl perform r).stage = r.stage ∧ (effects.foldl perform r).now = r.now ∧
      (effects.foldl perform r).handledAt = r.handledAt := by
  induction effects generalizing r with
  | nil => exact ⟨rfl, rfl, rfl, rfl⟩
  | cons effect effects ih =>
    obtain ⟨hscheduler, hstage, hnow, hhandled⟩ := ih (r.perform effect)
    rw [List.foldl_cons, hscheduler, hstage, hnow, hhandled]
    cases effect <;> exact ⟨rfl, rfl, rfl, rfl⟩

@[simp] theorem step_scheduler (r : Rehearsal) (f : Scheduler → Scheduler × List Effect) :
    (r.step f).scheduler = (f r.scheduler).1 :=
  (foldl_perform _ _).1

@[simp] theorem step_stage (r : Rehearsal) (f : Scheduler → Scheduler × List Effect) :
    (r.step f).stage = r.stage :=
  (foldl_perform _ _).2.1

@[simp] theorem step_now (r : Rehearsal) (f : Scheduler → Scheduler × List Effect) :
    (r.step f).now = r.now :=
  (foldl_perform _ _).2.2.1

@[simp] theorem step_handledAt (r : Rehearsal) (f : Scheduler → Scheduler × List Effect) :
    (r.step f).handledAt = r.now :=
  (foldl_perform _ _).2.2.2

/-- At its end a rehearsal has stopped the scheduler and runs no more. -/
theorem close_scheduler (r : Rehearsal) :
    r.close.scheduler = r.scheduler.stop.1 ∧ r.close.stage ≠ .running ∧
      r.close.handledAt = r.now := by
  simp only [close]
  split
  · exact ⟨step_scheduler r _, nofun, step_handledAt r _⟩
  · exact ⟨step_scheduler r _, nofun, step_handledAt r _⟩

/-- A step that is a turn of the scheduler, and that can come now, leads to where that turn
leads. -/
theorem At.step {t : Turn} {f : Scheduler → Scheduler × List Effect} (h : r.At run)
    (hrunning : r.stage = .running) (ht : t.ends = false)
    (hcomes : r.scheduler.CanCome r.handledAt r.now t)
    (hf : ∀ s : Scheduler, s.turn t = f s) : (r.step f).Follows run r.handledAt := by
  have hgoes := h.running.mpr hrunning
  refine ⟨[t], ?_, ?_⟩
  · rw [step_handledAt]
    exact .wake (h.scheduler ▸ hcomes) .sleep
  · rw [Run.after_cons, Run.after_nil, Run.take_of_running hgoes]
    constructor
    · rw [step_scheduler, hf, h.scheduler]
    · rw [step_stage, ht]
      exact ⟨fun _ => hrunning, fun _ => rfl⟩
    · intro _
      exact Nat.le_of_eq ((step_handledAt r f).trans (step_now r f).symm)

/-! ### What a rehearsal does -/

/-- An event that is handled is a turn. -/
theorem At.handle (h : r.At run) (event : Event) :
    (r.handle event).Follows run r.handledAt := by
  unfold Rehearsal.handle
  split
  · exact h.follows rfl
  · next hrunning =>
    rw [ne_eq, Decidable.not_not] at hrunning
    have hcomes : r.scheduler.CanCome r.handledAt r.now (.event r.now event) :=
      ⟨rfl, h.handled hrunning⟩
    by_cases hend : event = .shutdown
    · subst hend
      obtain ⟨hscheduler, hstage, hhandled⟩ :=
        close_scheduler (r.step (Scheduler.dispatch r.now .shutdown))
      refine ⟨[.event r.now .shutdown], ?_, ?_⟩
      · rw [if_pos rfl, hhandled, step_now]
        exact .wake (h.scheduler ▸ hcomes) .sleep
      · rw [Run.after_cons, Run.after_nil, Run.take_of_running (h.running.mpr hrunning),
          if_pos rfl]
        constructor
        · rw [hscheduler, step_scheduler, ← h.scheduler]
          rfl
        · exact ⟨nofun, fun hstill => absurd hstill hstage⟩
        · exact fun hstill => absurd hstill hstage
    · rw [if_neg hend]
      have ht : (Turn.event r.now event).ends = false := by
        cases event with
        | shutdown => exact absurd rfl hend
        | _ => rfl
      exact h.step hrunning ht hcomes (Scheduler.turn_event ht)

/-- Events that are handled are turns, in order. -/
theorem At.foldl_handle (h : r.At run) (events : List Event) :
    (events.foldl Rehearsal.handle r).Follows run r.handledAt := by
  induction events generalizing r run with
  | nil => exact h.follows rfl
  | cons event events ih =>
    obtain ⟨turns, htime, hhandled⟩ := h.handle event
    exact (ih hhandled).of_after htime

theorem At.drain (h : r.At run) : r.drain.Follows run r.handledAt :=
  At.foldl_handle (r := { r with queue := [] }) ⟨h.scheduler, h.running, h.handled⟩ r.queue

/-- A rendering that ends is a turn, as long as the scheduler takes any. -/
theorem At.finish (h : r.At run) (p : Performance) : (r.finish p).Follows run r.handledAt := by
  unfold Rehearsal.finish
  simp only
  split
  · next hstage =>
    exact At.step ⟨h.scheduler, h.running, h.handled⟩ hstage rfl (t := .answer p.result)
      (h.handled hstage) fun s => rfl
  · next awaited deadline hstage =>
    have hstopped : ¬ run.running = true := by
      rw [h.running, hstage]
      nofun
    split
    · exact At.follows ⟨h.scheduler, iff_of_false hstopped nofun, nofun⟩ rfl
    · exact At.follows ⟨h.scheduler, h.running, h.handled⟩ rfl
  · exact At.follows ⟨h.scheduler, h.running, h.handled⟩ rfl

/-- What a scheduler does by itself when that is due is a turn, as long as it takes any. -/
theorem At.wake {time : Nat} (h : r.At run) (hwakes : r.nextWake = some time)
    (hdue : time ≤ r.now) : r.wake.Follows run r.handledAt := by
  unfold Rehearsal.wake
  unfold nextWake at hwakes
  cases hcase : r.stage with
  | running =>
    simp only [hcase] at hwakes
    split at hwakes
    · next hpending =>
      have hslept : r.handledAt + r.scheduler.debouncer.sleepTime r.handledAt ≤ r.now := by
        rw [Option.some.inj hwakes]
        exact hdue
      exact h.step hcase rfl (t := .timer r.now) ⟨rfl, hpending, hslept⟩ fun s => rfl
    · cases hwakes
  | closing generation deadline =>
    refine At.follows ⟨h.scheduler, ?_, nofun⟩ rfl
    rw [h.running, hcase]
    exact iff_of_false nofun nofun
  | stopped =>
    simp only [hcase] at hwakes
    cases hwakes

/-- What is due by a time is due at some time. -/
theorem nextWake_of_le {target : Nat} (h : r.nextWake.getD (target + 1) ≤ target) :
    r.nextWake = some (r.nextWake.getD (target + 1)) := by
  cases hwakes : r.nextWake with
  | none =>
    rw [hwakes] at h
    exact absurd h (Nat.not_succ_le_self target)
  | some time => rfl

/-- All that happens up to a time are turns. -/
theorem At.runUntil (h : r.At run) (target fuel : Nat) :
    (r.runUntil target fuel).Follows run r.handledAt := by
  induction fuel generalizing r run with
  | zero => exact h.follows rfl
  | succ fuel ih =>
    have hmoved : ∀ time, At { r with now := max r.now time } run := fun time =>
      ⟨h.scheduler, h.running, fun hstage =>
        Nat.le_trans (h.handled hstage) (Nat.le_max_left _ _)⟩
    have hwake : ∀ time, time = r.nextWake.getD (target + 1) → time ≤ target →
        Follows (Rehearsal.runUntil target fuel
          (Rehearsal.wake { r with now := max r.now time })) run r.handledAt := by
      rintro time rfl hle
      obtain ⟨turns, htime, hwoken⟩ := (hmoved (r.nextWake.getD (target + 1))).wake
        (nextWake_of_le hle) (Nat.le_max_right _ _)
      exact (ih hwoken).of_after htime
    unfold Rehearsal.runUntil
    simp only
    split
    · split
      · obtain ⟨turns, htime, hfinished⟩ := (hmoved _).finish _
        exact (ih hfinished).of_after htime
      · split
        · next hle => exact hwake _ rfl hle
        · exact h.follows rfl
    · split
      · next hle => exact hwake _ rfl hle
      · exact h.follows rfl

theorem now_finish (r : Rehearsal) (p : Performance) : (r.finish p).now = r.now := by
  unfold Rehearsal.finish
  simp only
  split
  · exact step_now _ _
  · split <;> rfl
  · rfl

theorem now_wake (r : Rehearsal) : r.wake.now = r.now := by
  unfold Rehearsal.wake
  split
  · rfl
  · exact step_now _ _

/-- The clock stops at the time that is waited for. -/
theorem now_runUntil {target : Nat} (h : r.now ≤ target) (fuel : Nat) :
    (r.runUntil target fuel).now ≤ target := by
  induction fuel generalizing r with
  | zero => exact h
  | succ fuel ih =>
    unfold Rehearsal.runUntil
    simp only
    split
    · split
      · next hle =>
        apply ih
        rw [now_finish]
        exact Nat.max_le.mpr ⟨h, hle.2⟩
      · split
        · next hle =>
          apply ih
          rw [now_wake]
          exact Nat.max_le.mpr ⟨h, hle⟩
        · exact h
    · split
      · next hle =>
        apply ih
        rw [now_wake]
        exact Nat.max_le.mpr ⟨h, hle⟩
      · exact h

/-! ### Whole rehearsals -/

theorem At.settle (h : r.At run) : r.settle.Follows run r.handledAt := by
  obtain ⟨turns, htime, hdrained⟩ := h.drain
  exact (hdrained.runUntil _ _).of_after htime

theorem At.wait (h : r.At run) (ms : Nat) : (r.wait ms).Follows run r.handledAt := by
  obtain ⟨turns, htime, hdrained⟩ := h.drain
  obtain ⟨rest, hresttime, hpassed⟩ := hdrained.runUntil (r.drain.now + ms) r.drain.bound
  refine Follows.of_after ⟨rest, hresttime, hpassed.scheduler, hpassed.running, fun hstage => ?_⟩
    htime
  exact Nat.le_trans (hpassed.handled hstage) (now_runUntil (Nat.le_add_right _ _) _)

theorem At.send {q : Rehearsal} {event : Event} (h : r.At run) (hsent : r.send event = some q) :
    q.At run ∧ q.handledAt = r.handledAt := by
  unfold Rehearsal.send at hsent
  split at hsent
  · cases hsent
  · cases hsent
    exact ⟨⟨h.scheduler, h.running, h.handled⟩, rfl⟩

theorem At.closeAndWait (h : r.At run) : r.closeAndWait.Follows run r.handledAt := by
  have hsent : ((r.send .shutdown).getD r).At run ∧
      ((r.send .shutdown).getD r).handledAt = r.handledAt := by
    cases hcase : r.send .shutdown with
    | none => exact ⟨h, rfl⟩
    | some q => exact h.send hcase
  obtain ⟨turns, htime, hsettled⟩ := hsent.1.settle
  rw [hsent.2] at htime
  unfold Rehearsal.closeAndWait
  simp only
  split
  · next hclosing =>
    obtain ⟨rest, hresttime, hpassed⟩ := hsettled.runUntil _ _
    refine Follows.of_after ⟨rest, hresttime, hpassed.scheduler, hpassed.running, fun hstage => ?_⟩
      htime
    -- a rehearsal that closes does not run again
    have hgoes := Run.running_of_after (hpassed.running.mpr hstage)
    rw [hsettled.running.mp hgoes] at hclosing
    cases hclosing
  · exact ⟨turns, htime, hsettled⟩

/-- A rehearsal that was opened with a scene, and that events were sent to and time passed
for in any order. -/
inductive Rehearsed : Rehearsal → Prop where
  | opened (scene : Scene) (debounce : Nat) (parts : List Part) :
    Rehearsed { scheduler := .ofScene scene debounce, parts }
  | sent {r q : Rehearsal} {event : Event} (h : Rehearsed r) (hsent : r.send event = some q) :
    Rehearsed q
  | settled {r : Rehearsal} (h : Rehearsed r) : Rehearsed r.settle
  | waited {r : Rehearsal} (h : Rehearsed r) (ms : Nat) : Rehearsed (r.wait ms)
  | shown {r : Rehearsal} (h : Rehearsed r) : Rehearsed r.shown
  | closed {r : Rehearsal} (h : Rehearsed r) : Rehearsed r.closeAndWait

/-- Every moment of a rehearsal is a moment of a run whose turns were taken by the clock. -/
theorem Rehearsed.exists_turns (h : Rehearsed r) :
    ∃ scene debounce, r.Follows (Run.start scene debounce) 0 := by
  induction h with
  | opened scene debounce parts =>
    have hstart : At { scheduler := .ofScene scene debounce, parts } (Run.start scene debounce) :=
      ⟨rfl, iff_of_true rfl rfl, fun _ => Nat.le_refl 0⟩
    exact ⟨scene, debounce, hstart.follows rfl⟩
  | sent _ hsent ih =>
    obtain ⟨scene, debounce, turns, htime, hat⟩ := ih
    obtain ⟨hat', hhandled⟩ := hat.send hsent
    exact ⟨scene, debounce, turns, hhandled ▸ htime, hat'⟩
  | settled _ ih =>
    obtain ⟨scene, debounce, turns, htime, hat⟩ := ih
    exact ⟨scene, debounce, hat.settle.of_after htime⟩
  | waited _ ms ih =>
    obtain ⟨scene, debounce, turns, htime, hat⟩ := ih
    exact ⟨scene, debounce, (hat.wait ms).of_after htime⟩
  | shown _ ih =>
    obtain ⟨scene, debounce, turns, htime, hat⟩ := ih
    exact ⟨scene, debounce, turns, htime, hat.scheduler, hat.running, hat.handled⟩
  | closed _ ih =>
    obtain ⟨scene, debounce, turns, htime, hat⟩ := ih
    exact ⟨scene, debounce, hat.closeAndWait.of_after htime⟩

/-- Every moment of a rehearsal is a moment of a run. -/
theorem Rehearsed.exists_run (h : Rehearsed r) : ∃ run : Run, run.Reachable ∧ r.At run := by
  obtain ⟨scene, debounce, turns, -, hat⟩ := h.exists_turns
  exact ⟨_, ⟨scene, debounce, turns, rfl⟩, hat⟩

/-- Until a rehearsal closes, its scheduler forgets nothing that was told. -/
theorem Rehearsed.current (h : Rehearsed r) (hstage : r.stage = .running) :
    r.scheduler.Current := by
  obtain ⟨run, hrun, hat⟩ := h.exists_run
  rw [← hat.scheduler]
  exact hrun.current (hat.running.mpr hstage)

end SongPreview.Rehearsal
