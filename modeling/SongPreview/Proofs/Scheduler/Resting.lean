import SongPreview.Proofs.Scheduler.Timing
import Mathlib.Data.List.Induction

/-!
# How long a request rests

A debouncer is asked to take a request, to drop it, or to give back what has rested. What it holds
is always the request of the last push, since the time of that push, and it gives it back once,
from the moment on when the delay is over. Who sleeps as long as the debouncer says wakes at that
moment, or after the shortest sleep there is if the moment would come before; so the scheduler
never wakes in vain.
-/

namespace SongPreview

namespace Debouncer

variable {α : Type} {d : Debouncer α} {delay since now pushed : Nat} {request : α}

/-- What a debouncer can be asked. -/
inductive Call (α : Type) where
  | push (request : α)
  | clear
  | take
  deriving DecidableEq

/-- Whether a call brings a request. -/
def Call.pushes : Call α → Bool
  | .push _ => true
  | _ => false

/-- What a call gives back, and the debouncer behind it. -/
def call (now : Nat) (d : Debouncer α) : Call α → Option α × Debouncer α
  | .push request => (none, d.push now request)
  | .clear => (none, d.clear)
  | .take => d.takeIfReady now

/-- The debouncer after some calls, each with its time. -/
def after (d : Debouncer α) (calls : List (Nat × Call α)) : Debouncer α :=
  calls.foldl (fun d c => (d.call c.1 c.2).2) d

/-- The requests that some calls give back, in order. -/
def given (d : Debouncer α) : List (Nat × Call α) → List α
  | [] => []
  | c :: calls => (d.call c.1 c.2).1.toList ++ (d.call c.1 c.2).2.given calls

/-- Calls are made one after another, the last of them by now. -/
def InOrder (calls : List (Nat × Call α)) (now : Nat) : Prop :=
  (calls.map Prod.fst ++ [now]).Pairwise (· ≤ ·)

instance (calls : List (Nat × Call α)) (now : Nat) : Decidable (InOrder calls now) :=
  inferInstanceAs (Decidable (List.Pairwise _ _))

/-- A request rests since it was pushed: no other took its place, it was not dropped, and whoever
asked for it came before the delay was over. -/
def RestsSince (delay : Nat) (calls : List (Nat × Call α)) (since : Nat) (request : α) : Prop :=
  ∃ before behind, calls = before ++ (since, .push request) :: behind ∧
    ∀ c ∈ behind, c.2 = .take ∧ c.1 < since + delay

variable {calls later : List (Nat × Call α)} {c : Nat × Call α}

/-! ### Calls in order -/

@[simp] theorem after_nil (d : Debouncer α) : d.after [] = d := rfl

@[simp] theorem after_append (d : Debouncer α) (calls later : List (Nat × Call α)) :
    d.after (calls ++ later) = (d.after calls).after later :=
  List.foldl_append

theorem InOrder.concat (h : InOrder (calls ++ [c]) now) : InOrder calls c.1 ∧ c.1 ≤ now := by
  rw [InOrder, List.map_append, List.pairwise_append] at h
  exact ⟨h.1, h.2.2 c.1 (by simp) now (by simp)⟩

theorem InOrder.le_of_mem (h : InOrder calls now) (hc : c ∈ calls) : c.1 ≤ now := by
  rw [InOrder, List.pairwise_append] at h
  exact h.2.2 c.1 (List.mem_map_of_mem hc) now (by simp)

/-- Calls that are made now come after all that were made by then. -/
theorem InOrder.append (h : InOrder calls since) (hle : since ≤ now)
    (hlater : ∀ c ∈ later, c.1 = now) : InOrder (calls ++ later) now := by
  have htimes (time : Nat) (htime : time ∈ later.map Prod.fst ++ [now]) : time = now := by
    rcases List.mem_append.mp htime with hmem | hmem
    · obtain ⟨c, hc, rfl⟩ := List.mem_map.mp hmem
      exact hlater c hc
    · exact List.mem_singleton.mp hmem
  rw [InOrder, List.map_append, List.append_assoc, List.pairwise_append]
  refine ⟨(List.pairwise_append.mp h).1, ?_, fun time htime time' htime' => ?_⟩
  · exact List.pairwise_of_forall_mem_list fun time htime time' htime' =>
      Nat.le_of_eq ((htimes time htime).trans (htimes time' htime').symm)
  · obtain ⟨c, hc, rfl⟩ := List.mem_map.mp htime
    rw [htimes time' htime']
    exact Nat.le_trans (h.le_of_mem hc) hle

theorem InOrder.mono (h : InOrder calls since) (hle : since ≤ now) : InOrder calls now := by
  have happend := h.append hle (List.forall_mem_nil fun c : Nat × Call α => c.1 = now)
  rwa [List.append_nil] at happend

/-! ### What rests -/

theorem RestsSince.le (h : RestsSince delay calls since request) (horder : InOrder calls now) :
    since ≤ now := by
  obtain ⟨before, behind, rfl, -⟩ := h
  exact horder.le_of_mem (c := (since, .push request)) (by simp)

/-- With one more call, a request rests that is pushed by it, or one that rested before and was
asked for too early. -/
theorem restsSince_concat : RestsSince delay (calls ++ [c]) since request ↔
    c = (since, .push request) ∨
      RestsSince delay calls since request ∧ c.2 = .take ∧ c.1 < since + delay := by
  constructor
  · rintro ⟨before, behind, heq, hbehind⟩
    rcases split_concat heq with ⟨-, rfl, -⟩ | ⟨rest, rfl, rfl⟩
    · exact .inl rfl
    · exact .inr ⟨⟨before, rest, rfl, fun c hc => hbehind c (List.mem_append_left _ hc)⟩,
        hbehind c (by simp)⟩
  · rintro (rfl | ⟨⟨before, behind, rfl, hbehind⟩, hc⟩)
    · exact ⟨calls, [], rfl, nofun⟩
    · refine ⟨before, behind ++ [c], by simp, fun c' hc' => ?_⟩
      rcases List.mem_append.mp hc' with hmem | hmem
      · exact hbehind c' hmem
      · rwa [List.mem_singleton.mp hmem]

/-! ### Taking what has rested -/

theorem takeIfReady_of_idle (h : d.pending = none) (now : Nat) :
    d.takeIfReady now = (none, d) := by
  have hready : d.isReady now = false := by
    rw [isReady, h]
    cases d.lastPush <;> simp
  rw [takeIfReady, hready, if_neg Bool.false_ne_true]

/-- A request is given back from the moment on when it has rested for the delay. -/
theorem takeIfReady_of_pending (hpending : d.pending = some request)
    (hlast : d.lastPush = some since) (hle : since ≤ now) :
    d.takeIfReady now = if since + d.delay ≤ now then (some request, d.clear) else (none, d) := by
  have hready : d.isReady now = decide (since + d.delay ≤ now) := by
    simp only [isReady, hlast, hpending, Option.isSome_some, Bool.and_true, decide_eq_decide]
    omega
  simp only [takeIfReady, hready, decide_eq_true_eq, hpending]

/-- Without a further push nothing comes back from a debouncer that holds nothing. -/
theorem given_of_idle (h : d.pending = none) (hlater : ∀ c ∈ later, c.2.pushes = false) :
    d.given later = [] := by
  induction later generalizing d with
  | nil => rfl
  | cons c later ih =>
    obtain ⟨hc, hrest⟩ := List.forall_mem_cons.mp hlater
    obtain ⟨time, asked⟩ := c
    cases asked with
    | push request => cases hc
    | clear => exact ih rfl hrest
    | take =>
      rw [given, call, takeIfReady_of_idle h]
      exact ih h hrest

/-- Without a further push what waits comes back once or not at all. -/
theorem given_of_pending (h : d.pending = some request)
    (hlater : ∀ c ∈ later, c.2.pushes = false) :
    d.given later = [] ∨ d.given later = [request] := by
  induction later generalizing d with
  | nil => exact .inl rfl
  | cons c later ih =>
    obtain ⟨hc, hrest⟩ := List.forall_mem_cons.mp hlater
    obtain ⟨time, asked⟩ := c
    cases asked with
    | push request => cases hc
    | clear => exact .inl (given_of_idle (d := d.clear) rfl hrest)
    | take =>
      rw [given, call, takeIfReady]
      split
      · right
        rw [h, given_of_idle rfl hrest]
        rfl
      · exact ih h hrest

/-! ### What a debouncer holds -/

/-- A debouncer holds what rests after some calls, and when that was pushed. -/
structure Holds (delay : Nat) (calls : List (Nat × Call α)) (d : Debouncer α) : Prop where
  delay_eq : d.delay = delay
  recorded : d.pending.isSome = d.lastPush.isSome
  rests : ∀ since request, d.pending = some request ∧ d.lastPush = some since ↔
    RestsSince delay calls since request

theorem Holds.exists_rests (h : Holds delay calls d) (hpending : d.pending = some request) :
    ∃ since, d.lastPush = some since ∧ RestsSince delay calls since request := by
  have hrecorded : d.lastPush.isSome = true := by
    rw [← h.recorded, hpending, Option.isSome_some]
  obtain ⟨since, hlast⟩ := Option.isSome_iff_exists.mp hrecorded
  exact ⟨since, hlast, (h.rests since request).mp ⟨hpending, hlast⟩⟩

theorem Holds.eq_of_rests (h : Holds delay calls d) (hlast : d.lastPush = some pushed)
    (hrests : RestsSince delay calls since request) : since = pushed :=
  Option.some.inj (((h.rests since request).mpr hrests).2.symm.trans hlast)

theorem Holds.takeIfReady (h : Holds delay calls d) (horder : InOrder calls now)
    (hrests : RestsSince delay calls since request) :
    d.takeIfReady now = if since + delay ≤ now then (some request, d.clear) else (none, d) := by
  obtain ⟨hpending, hlast⟩ := (h.rests since request).mpr hrests
  rw [takeIfReady_of_pending hpending hlast (hrests.le horder), h.delay_eq]

theorem Holds.takeIfReady_eq_some_iff (h : Holds delay calls d) (horder : InOrder calls now) :
    (d.takeIfReady now).1 = some request ↔
      ∃ since, RestsSince delay calls since request ∧ since + delay ≤ now := by
  constructor
  · intro hgiven
    cases hpending : d.pending with
    | none =>
      rw [takeIfReady_of_idle hpending] at hgiven
      cases hgiven
    | some waiting =>
      obtain ⟨since, -, hrests⟩ := h.exists_rests hpending
      rw [h.takeIfReady horder hrests] at hgiven
      split at hgiven
      · next hdue =>
        obtain rfl := Option.some.inj hgiven
        exact ⟨since, hrests, hdue⟩
      · cases hgiven
  · rintro ⟨since, hrests, hdue⟩
    rw [h.takeIfReady horder hrests, if_pos hdue]

/-- A call leaves a debouncer that holds what rests after it. -/
theorem Holds.call (h : Holds delay calls d) (horder : InOrder calls c.1) :
    Holds delay (calls ++ [c]) (d.call c.1 c.2).2 := by
  obtain ⟨time, asked⟩ := c
  cases asked with
  | push pushed =>
    refine ⟨h.delay_eq, rfl, fun since request => ?_⟩
    rw [restsSince_concat]
    simp [Debouncer.call, push, and_comm]
  | clear =>
    refine ⟨h.delay_eq, rfl, fun since request => ?_⟩
    rw [restsSince_concat]
    simp [Debouncer.call, clear]
  | take =>
    cases hpending : d.pending with
    | none =>
      rw [Debouncer.call, takeIfReady_of_idle hpending]
      refine ⟨h.delay_eq, h.recorded, fun since request => ?_⟩
      rw [restsSince_concat, ← h.rests since request]
      simp [hpending]
    | some waiting =>
      obtain ⟨pushed, hlast, hrests⟩ := h.exists_rests hpending
      rw [Debouncer.call, h.takeIfReady horder hrests]
      split
      · next hdue =>
        -- it was given back, so nothing rests any more
        refine ⟨h.delay_eq, rfl, fun since request => ⟨nofun, fun hnow => ?_⟩⟩
        obtain heq | ⟨hbefore, -, hearly⟩ := restsSince_concat.mp hnow
        · cases heq
        · obtain rfl := h.eq_of_rests hlast hbefore
          exact absurd hdue (Nat.not_le.mpr hearly)
      · next hearly =>
        refine ⟨h.delay_eq, h.recorded, fun since request => ?_⟩
        rw [h.rests since request, restsSince_concat]
        constructor
        · intro hbefore
          obtain rfl := h.eq_of_rests hlast hbefore
          exact .inr ⟨hbefore, rfl, Nat.not_le.mp hearly⟩
        · rintro (heq | ⟨hbefore, -⟩)
          · cases heq
          · exact hbefore

/-- After any calls in order, a debouncer holds what rests. -/
theorem holds_after (horder : InOrder calls now) :
    Holds delay calls ((new delay).after calls) := by
  induction calls using List.reverseRecOn generalizing now with
  | nil => exact ⟨rfl, rfl, by simp [after, new, RestsSince]⟩
  | append_singleton calls c ih =>
    have hbefore := horder.concat.1
    rw [after_append]
    exact (ih hbefore).call hbefore

/-- Who sleeps as long as a debouncer says wakes when the delay is over, or after the shortest
sleep if that is later. -/
theorem Holds.add_sleepAtLeast (h : Holds delay calls d) (horder : InOrder calls now)
    (hrests : RestsSince delay calls since request) (least : Nat) :
    now + d.sleepAtLeast least now = max (since + delay) (now + least) := by
  have hle := hrests.le horder
  have hlast := ((h.rests since request).mpr hrests).2
  simp only [sleepAtLeast, hlast, h.delay_eq]
  omega

end Debouncer

namespace Scheduler

open Debouncer

variable {s : Scheduler} {t : Turn} {since now debounce : Nat}

/-! ### The debouncer of a scheduler -/

/-- Considering the latest document is a call or none. -/
theorem exists_calls_considerLatest (now : Nat) (force : Bool) (s : Scheduler) :
    ∃ calls : List (Nat × Call Pending), (∀ c ∈ calls, c.1 = now) ∧
      (s.considerLatest now force).1.debouncer = s.debouncer.after calls := by
  rcases considerLatest_cases now force s with hsame | hclear | ⟨p, hpush⟩
  · exact ⟨[], by simp, by rw [hsame, after_nil]⟩
  · refine ⟨[(now, .clear)], by simp, ?_⟩
    rw [hclear]
    rfl
  · refine ⟨[(now, .push p)], by simp, ?_⟩
    rw [hpush]
    rfl

/-- Whatever a scheduler takes up, it makes calls to its debouncer, at that time. -/
theorem exists_calls_turn (hends : t.ends = false) (hcomes : s.CanCome since now t) :
    ∃ calls : List (Nat × Call Pending), (∀ c ∈ calls, c.1 = now) ∧
      (s.turn t).1.debouncer = s.debouncer.after calls := by
  cases t with
  | answer result =>
    obtain ⟨inFlight, scene, -, hcomplete⟩ := complete_fst result s
    exact ⟨[], by simp, by simp only [turn, hcomplete, after_nil]⟩
  | event time event =>
    obtain ⟨rfl, -⟩ := hcomes
    rw [turn_event hends]
    cases event with
    | edit document =>
      simp only [dispatch]
      exact exists_calls_considerLatest time false { s with latest := some document }
    | setPane pane =>
      by_cases hpane : pane = s.scene.pane
      · exact ⟨[], by simp, by simp only [dispatch, if_pos hpane, after_nil]⟩
      · simp only [dispatch, if_neg hpane, revise]
        exact exists_calls_considerLatest time false { s with scene := { s.scene with pane } }
    | refresh =>
      simp only [dispatch]
      exact exists_calls_considerLatest time true s
    | clearLog => exact ⟨[], by simp, by simp only [dispatch, revise, after_nil]⟩
    | notice d => exact ⟨[], by simp, by simp only [dispatch, revise, after_nil]⟩
    | shutdown => cases hends
  | hangUp => cases hends
  | timer time =>
    obtain ⟨rfl, -⟩ := hcomes
    refine ⟨[(time, .take)], by simp, ?_⟩
    simp only [turn, Debouncer.after, List.foldl_cons, List.foldl_nil, Debouncer.call, takeIfReady]
    rcases expire_cases time s with ⟨hready, hexpire⟩ | ⟨p, -, hready, hexpire⟩
    · simp only [hexpire, hready, Bool.false_eq_true, if_false]
    · simp only [hexpire, hready, accept_debouncer, if_true]

namespace Run

variable {r : Run} {turns : List Turn} {stop : Nat}

/-- A run that takes its turns by the clock makes its calls in order. -/
theorem exists_calls_after (htime : r.InTime since turns stop)
    (hrunning : (r.after turns).running = true)
    (hstart : ∃ calls, InOrder calls since ∧
      r.scheduler.debouncer = (Debouncer.new debounce).after calls) :
    ∃ calls, InOrder calls stop ∧
      (r.after turns).scheduler.debouncer = (Debouncer.new debounce).after calls := by
  induction htime with
  | sleep => exact hstart
  | wake comes _ ih =>
    obtain ⟨calls, horder, hcalls⟩ := hstart
    obtain ⟨hgoes, hends⟩ := running_take.mp (running_of_after hrunning)
    obtain ⟨later, hlater, hturn⟩ := exists_calls_turn hends comes
    refine ih hrunning ⟨calls ++ later, horder.append comes.le hlater, ?_⟩
    rw [take_of_running hgoes, hturn, hcalls, Debouncer.after_append]

end Run

end Scheduler

namespace Debouncer

/-- **A request rests for the delay and no longer.** After any calls in order, something waits
exactly if the time of a push is recorded, and it is the request of the last push, since that
push. It is given back if and only if the delay has passed since then, and until the next push it
is given back once at most. Who sleeps as long as the debouncer says wakes when the delay is over,
or after the shortest sleep there is if that is later, and then the request is given back; a clock
may be as fine as it likes against the shortest sleep. And a scheduler that goes by the clock never
wakes without being given what waits. -/
theorem rests_for_delay (delay : Nat) :
    (∀ (α : Type) (calls : List (Nat × Call α)) (now : Nat), InOrder calls now →
      let d := (new delay).after calls
      d.pending.isSome = d.lastPush.isSome ∧
      (∀ since request, d.pending = some request ∧ d.lastPush = some since ↔
        RestsSince delay calls since request) ∧
      (∀ request, (d.takeIfReady now).1 = some request ↔
        ∃ since, RestsSince delay calls since request ∧ since + delay ≤ now) ∧
      (∀ before behind since request, calls = before ++ (since, .push request) :: behind →
        (∀ c ∈ behind, c.2.pushes = false) →
          (((new delay).after before).push since request).given behind = [] ∨
            (((new delay).after before).push since request).given behind = [request]) ∧
      ∀ since request least, RestsSince delay calls since request →
        now + d.sleepAtLeast least now = max (since + delay) (now + least) ∧
        ∀ wake, now + d.sleepAtLeast least now ≤ wake →
          (d.takeIfReady wake).1 = some request) ∧
    ∀ (scene : Scene) (turns : List Scheduler.Turn) (since stop now : Nat) (r : Scheduler.Run),
      r = (Scheduler.Run.start scene delay).after turns → r.running = true →
      (Scheduler.Run.start scene delay).InTime since turns stop →
      r.scheduler.CanCome stop now (.timer now) →
        ∃ p, r.scheduler.debouncer.pending = some p ∧
          (r.scheduler.debouncer.takeIfReady now).1 = some p := by
  constructor
  · intro α calls now horder d
    have hholds : Holds delay calls d := holds_after horder
    refine ⟨hholds.recorded, hholds.rests, fun request => hholds.takeIfReady_eq_some_iff horder,
      fun before behind since request _ hbehind => given_of_pending rfl hbehind,
      fun since request least hrests => ?_⟩
    have hwake := hholds.add_sleepAtLeast horder hrests least
    refine ⟨hwake, fun wake hslept => ?_⟩
    have hlater : InOrder calls wake := horder.mono (by omega)
    exact (hholds.takeIfReady_eq_some_iff hlater).mpr ⟨since, hrests, by omega⟩
  · rintro scene turns since stop now r rfl hrunning htime hcomes
    obtain ⟨calls, horder, hcalls⟩ :=
      Scheduler.Run.exists_calls_after htime hrunning ⟨[], List.pairwise_singleton _ _, rfl⟩
    have hholds : Holds delay calls ((new delay).after calls) := holds_after horder
    rw [← hcalls] at hholds
    obtain ⟨p, hpending⟩ := Option.isSome_iff_exists.mp hcomes.2.1
    obtain ⟨pushed, hlast, hrests⟩ := hholds.exists_rests hpending
    have hdue := Scheduler.le_of_canCome_timer hlast (hrests.le horder) hcomes
    rw [hholds.delay_eq] at hdue
    have hlater : InOrder calls now := horder.mono hcomes.le
    exact ⟨p, hpending, (hholds.takeIfReady_eq_some_iff hlater).mpr ⟨pushed, hrests, hdue⟩⟩

/-- A line of a song, and half a millisecond before it is due, counted in tenths of milliseconds,
another push and somebody who asks. -/
private def askedEarly : List (Nat × Call String) :=
  [(0, .push "[C]I heard"), (2000, .push "[C]I heard\n[F]there was"), (4995, .take)]

/-- A scheduler of a new song with a delay of three seconds. -/
private def unhurried : Scheduler.Run :=
  .start (.new (.unsaved "Untitled-1") .previewOnly) 3000

/-- The song gets its first line. -/
private def lineTold : List Scheduler.Turn :=
  [.event 0 (.edit ⟨"[C]I heard", {}, .unsaved "Untitled-1"⟩)]

/-- A whole millisecond is slept where half of one is left, and then the second push is given back.
A scheduler that was told of a line is given it at the end of its sleep. -/
theorem second_push_given_when_woken :
    InOrder askedEarly 4995 ∧ RestsSince 3000 askedEarly 2000 "[C]I heard\n[F]there was" ∧
      (((new 3000).after askedEarly).takeIfReady 4995).1 = none ∧
      4995 + ((new 3000).after askedEarly).sleepAtLeast 10 4995 = 5005 ∧
      (((new 3000).after askedEarly).takeIfReady 5005).1 = some "[C]I heard\n[F]there was" ∧
      (unhurried.after lineTold).running = true ∧ unhurried.InTime 0 lineTold 0 ∧
      (unhurried.after lineTold).scheduler.CanCome 0 3000 (.timer 3000) ∧
      ∃ p, ((unhurried.after lineTold).scheduler.debouncer.takeIfReady 3000).1 = some p := by
  obtain ⟨hcalls, hscheduler⟩ := rests_for_delay 3000
  have horder : InOrder askedEarly 4995 := by decide
  obtain ⟨-, hrests, -, -, hwake⟩ := hcalls String askedEarly 4995 horder
  have hsecond : RestsSince 3000 askedEarly 2000 "[C]I heard\n[F]there was" :=
    (hrests _ _).mp ⟨rfl, rfl⟩
  obtain ⟨hslept, hgiven⟩ := hwake _ _ 10 hsecond
  have htold : unhurried.InTime 0 lineTold 0 := .told (Nat.le_refl 0) .sleep
  have hcomes : (unhurried.after lineTold).scheduler.CanCome 0 3000 (.timer 3000) :=
    ⟨rfl, by decide +kernel, by decide +kernel⟩
  obtain ⟨p, -, hp⟩ := hscheduler _ lineTold 0 0 3000 _ rfl rfl htold hcomes
  exact ⟨horder, hsecond, rfl, hslept, hgiven 5005 (Nat.le_of_eq hslept), rfl, htold, hcomes, p, hp⟩

end Debouncer

end SongPreview
