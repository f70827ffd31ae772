import SongPreview.Proofs.Scheduler.Steps
import Mathlib.Data.List.Basic

/-!
# Runs of a scheduler

A running scheduler takes turns: an answer of the renderer comes, something is told, or
the wait is over. A run is the scheduler as it stands, with the turns that it took and
all that it asked for, in order. The times of the turns, their order, and what the
renderer answers are free; what a renderer promises is a condition of its own.
-/

namespace SongPreview

/-- A place in a list that became longer is its new end, or was there before. -/
theorem split_concat {β : Type} {list before behind : List β} {new b : β}
    (h : list ++ [new] = before ++ b :: behind) :
    before = list ∧ b = new ∧ behind = [] ∨
      ∃ rest, behind = rest ++ [new] ∧ list = before ++ b :: rest := by
  rcases List.eq_nil_or_concat' behind with rfl | ⟨rest, last, rfl⟩
  · obtain ⟨rfl, rfl⟩ := List.append_singleton_inj.mp h
    exact Or.inl ⟨rfl, rfl, rfl⟩
  · have hsplit : list ++ [new] = (before ++ b :: rest) ++ [last] := by
      simpa only [List.append_assoc, List.cons_append] using h
    obtain ⟨rfl, rfl⟩ := List.append_singleton_inj.mp hsplit
    exact Or.inr ⟨rest, rfl, rfl⟩

namespace Scheduler

/-- What a running scheduler takes up next. -/
inductive Turn where
  /-- The renderer answers. -/
  | answer (result : RenderResult)
  /-- Something is told at a time. -/
  | event (now : Nat) (event : Event)
  /-- Nobody is left who could tell anything. -/
  | hangUp
  /-- The wait is over. -/
  | timer (now : Nat)
  deriving DecidableEq

namespace Turn

/-- Whether the scheduler stops at this turn. -/
def ends : Turn → Bool
  | .event _ .shutdown => true
  | .hangUp => true
  | _ => false

/-- The answer that comes, if one does. -/
def answer? : Turn → Option RenderResult
  | .answer result => some result
  | _ => none

/-- The document that is told, if one is. -/
def document? : Turn → Option Document
  | .event _ (.edit document) => some document
  | _ => none

/-- The view that is asked for, if one is. -/
def pane? : Turn → Option Pane
  | .event _ (.setPane pane) => some pane
  | _ => none

end Turn

/-- What a turn does to the scheduler, and what it asks for. -/
def turn (s : Scheduler) : Turn → Scheduler × List Effect
  | .answer result => s.complete result
  | .event now event =>
    let (s, told) := s.dispatch now event
    if event = .shutdown then (s.stop.1, told ++ s.stop.2) else (s, told)
  | .hangUp => s.stop
  | .timer now => s.expire now

/-- What is told without stopping the scheduler is only handled. -/
theorem turn_event {now : Nat} {event : Event} (h : (Turn.event now event).ends = false)
    (s : Scheduler) : s.turn (.event now event) = s.dispatch now event := by
  have hnot : event ≠ .shutdown := by
    rintro rfl
    cases h
  simp only [turn, if_neg hnot]

/-- Only the end of a wait gives out a generation, for what waited; every other turn keeps
what was accepted and hands nothing over. -/
theorem turn_accepts_or_keeps (s : Scheduler) (t : Turn) :
    (∃ now p, t = .timer now ∧ s.debouncer.pending = some p ∧ s.debouncer.isReady now = true ∧
        s.turn t = accept p { s with debouncer := s.debouncer.clear }) ∨
      (s.turn t).1.generation = s.generation ∧ (s.turn t).1.accepted = s.accepted ∧
        (s.turn t).2.filterMap Effect.request? = [] ∧
        (s.turn t).2.filterMap Effect.givenOut? = [] := by
  have hstop := stop_asks_nothing (β := Request) Effect.request? (fun _ => rfl)
  have hstop' := stop_asks_nothing (β := Nat) Effect.givenOut? (fun _ => rfl)
  cases t with
  | answer result =>
    right
    obtain ⟨inFlight, scene, _, hcomplete⟩ := complete_fst result s
    refine ⟨by simp only [turn, hcomplete], by simp only [turn, hcomplete], ?_, ?_⟩
    · exact complete_asks_nothing Effect.request? (fun _ => rfl) (fun _ => rfl) result s
    · exact complete_asks_nothing Effect.givenOut? (fun _ => rfl) (fun _ => rfl) result s
  | event now event =>
    right
    have hsame := sameRenderings_dispatch now event s
    have htold := dispatch_asks_nothing Effect.request? rfl rfl (fun _ => rfl) now event s
    have htold' := dispatch_asks_nothing Effect.givenOut? rfl rfl (fun _ => rfl) now event s
    simp only [turn]
    split
    · refine ⟨hsame.generation, hsame.accepted, ?_, ?_⟩
      · rw [List.filterMap_append, htold, hstop, List.append_nil]
      · rw [List.filterMap_append, htold', hstop', List.append_nil]
    · exact ⟨hsame.generation, hsame.accepted, htold, htold'⟩
  | hangUp => exact Or.inr ⟨rfl, rfl, hstop s, hstop' s⟩
  | timer now =>
    rcases expire_cases now s with ⟨_, hnot⟩ | ⟨p, hpending, hready, hdue⟩
    · right
      simp only [turn, hnot, List.filterMap_nil, and_self]
    · left
      exact ⟨now, p, rfl, hpending, hready, hdue⟩

/-- A turn takes no generation back. -/
theorem generation_le_turn (s : Scheduler) (t : Turn) :
    s.generation ≤ (s.turn t).1.generation := by
  rcases turn_accepts_or_keeps s t with ⟨now, p, _, _, _, haccept⟩ | ⟨hkeeps, _⟩
  · rw [haccept, accept_generation]
    exact Nat.le_succ _
  · exact Nat.le_of_eq hkeeps.symm

/-- A run up to a moment. -/
structure Run where
  scheduler : Scheduler
  /-- Whether the scheduler still takes turns. -/
  running : Bool
  /-- The turns that it took. -/
  turns : List Turn
  /-- Everything that it asked for. -/
  effects : List Effect

namespace Run

/-- A run that begins with a scene. -/
def start (scene : Scene) (debounce : Nat) : Run :=
  ⟨ofScene scene debounce, true, [], []⟩

/-- The run with one more turn. A scheduler that has stopped takes none. -/
def take (r : Run) (t : Turn) : Run :=
  if r.running then
    ⟨(r.scheduler.turn t).1, !t.ends, r.turns ++ [t], r.effects ++ (r.scheduler.turn t).2⟩
  else r

/-- The run with some more turns. -/
def after (r : Run) (turns : List Turn) : Run :=
  turns.foldl take r

/-- Some turns lead to the run from some scene. -/
def Reachable (r : Run) : Prop :=
  ∃ scene debounce turns, r = (start scene debounce).after turns

/-- The requests that were handed to the renderer. -/
def handed (r : Run) : List Request :=
  r.effects.filterMap Effect.request?

/-- The generations that were cancelled. -/
def cancelled (r : Run) : List Nat :=
  r.effects.filterMap Effect.cancelled?

/-- The scenes that were published. -/
def published (r : Run) : List Scene :=
  r.effects.filterMap Effect.scene?

/-- The generations that were given out. -/
def givenOut (r : Run) : List Nat :=
  r.effects.filterMap Effect.givenOut?

/-- The answers that came back. -/
def answers (r : Run) : List RenderResult :=
  r.turns.filterMap Turn.answer?

/-- The documents that were told. -/
def documents (r : Run) : List Document :=
  r.turns.filterMap Turn.document?

/-- A request is the one that was handed over for a generation. -/
def RequestOf (r : Run) (generation : Nat) (request : Request) : Prop :=
  ∀ other, other ∈ r.handed ∧ other.generation = generation ↔ other = request

/-- A result is the one answer that came for a generation. -/
def AnswerOf (r : Run) (generation : Nat) (result : RenderResult) : Prop :=
  ∀ other, other ∈ r.answers ∧ other.generation = generation ↔ other = result

/-- What a renderer promises about its turns: it answers a request that it was handed, by
its generation and only once, and it answers that it was cancelled only if it was. -/
def Admits (r : Run) : Turn → Prop
  | .answer result =>
    result.generation ∈ r.handed.map Request.generation ∧
      result.generation ∉ r.answers.map RenderResult.generation ∧
      (result.outcome = .cancelled → result.generation ∈ r.cancelled)
  | _ => True

/-- The renderer keeps its promise at each of some turns. -/
def AdmitsAll : Run → List Turn → Prop
  | _, [] => True
  | r, t :: turns => r.Admits t ∧ (r.take t).AdmitsAll turns

/-- Some turns at which the renderer kept its promise lead to the run from some scene. -/
def Faithful (r : Run) : Prop :=
  ∃ scene debounce turns,
    (start scene debounce).AdmitsAll turns ∧ r = (start scene debounce).after turns

instance decidableAdmits (r : Run) : (t : Turn) → Decidable (r.Admits t)
  | .answer _ => inferInstanceAs (Decidable (_ ∧ _ ∧ (_ → _)))
  | .event _ _ => isTrue trivial
  | .hangUp => isTrue trivial
  | .timer _ => isTrue trivial

instance decidableAdmitsAll : (r : Run) → (turns : List Turn) → Decidable (r.AdmitsAll turns)
  | _, [] => isTrue trivial
  | r, t :: turns =>
    have := decidableAdmitsAll (r.take t) turns
    inferInstanceAs (Decidable (r.Admits t ∧ (r.take t).AdmitsAll turns))

variable {r : Run} {t : Turn} {turns : List Turn}

theorem Faithful.reachable (h : r.Faithful) : r.Reachable := by
  obtain ⟨scene, debounce, turns, _, hr⟩ := h
  exact ⟨scene, debounce, turns, hr⟩

/-! ### Taking turns -/

/-- A scheduler that has stopped stays as it is. -/
theorem take_of_stopped (h : r.running = false) (t : Turn) : r.take t = r := by
  unfold take
  rw [h]
  rfl

theorem take_of_running (h : r.running = true) (t : Turn) :
    r.take t =
      ⟨(r.scheduler.turn t).1, !t.ends, r.turns ++ [t], r.effects ++ (r.scheduler.turn t).2⟩ := by
  unfold take
  rw [if_pos h]

@[simp] theorem after_nil (r : Run) : r.after [] = r := rfl

@[simp] theorem after_cons (r : Run) (t : Turn) (turns : List Turn) :
    r.after (t :: turns) = (r.take t).after turns := rfl

@[simp] theorem after_append (r : Run) (turns turns' : List Turn) :
    r.after (turns ++ turns') = (r.after turns).after turns' :=
  List.foldl_append

/-- A run goes on only after a turn that does not end it. -/
theorem running_take : (r.take t).running = true ↔ r.running = true ∧ t.ends = false := by
  cases hrunning : r.running with
  | false => simp only [take_of_stopped hrunning, hrunning, Bool.false_eq_true, false_and]
  | true => simp only [take_of_running hrunning, Bool.not_eq_true', true_and]

/-- A run that goes on has gone on at every moment before. -/
theorem running_of_after (h : (r.after turns).running = true) : r.running = true := by
  induction turns generalizing r with
  | nil => exact h
  | cons t turns ih => exact (running_take.mp (ih h)).1

theorem handed_take (h : r.running = true) (t : Turn) :
    (r.take t).handed = r.handed ++ (r.scheduler.turn t).2.filterMap Effect.request? := by
  rw [take_of_running h]
  exact List.filterMap_append

theorem cancelled_take (h : r.running = true) (t : Turn) :
    (r.take t).cancelled = r.cancelled ++ (r.scheduler.turn t).2.filterMap Effect.cancelled? := by
  rw [take_of_running h]
  exact List.filterMap_append

theorem published_take (h : r.running = true) (t : Turn) :
    (r.take t).published = r.published ++ (r.scheduler.turn t).2.filterMap Effect.scene? := by
  rw [take_of_running h]
  exact List.filterMap_append

theorem givenOut_take (h : r.running = true) (t : Turn) :
    (r.take t).givenOut = r.givenOut ++ (r.scheduler.turn t).2.filterMap Effect.givenOut? := by
  rw [take_of_running h]
  exact List.filterMap_append

theorem answers_take (h : r.running = true) (t : Turn) :
    (r.take t).answers = r.answers ++ t.answer?.toList := by
  rw [take_of_running h]
  simp only [answers, List.filterMap_append, List.filterMap_cons, List.filterMap_nil]
  cases t.answer? <;> rfl

theorem documents_take (h : r.running = true) (t : Turn) :
    (r.take t).documents = r.documents ++ t.document?.toList := by
  rw [take_of_running h]
  simp only [documents, List.filterMap_append, List.filterMap_cons, List.filterMap_nil]
  cases t.document? <;> rfl

/-- A generation is given out to a request that is handed over, or to a document that needs
no preview. -/
theorem handed_or_parked_of_givenOut {generation : Nat} (h : generation ∈ r.givenOut) :
    (∃ request ∈ r.handed, request.generation = generation) ∨
      .remark (.needsNoPreview generation) ∈ r.effects := by
  obtain ⟨effect, heffect, hgiven⟩ := List.mem_filterMap.mp h
  cases effect with
  | publish scene => cases hgiven
  | cancel old => cases hgiven
  | start request =>
    left
    exact ⟨request, List.mem_filterMap.mpr ⟨_, heffect, rfl⟩, Option.some.inj hgiven⟩
  | remark remark =>
    cases remark with
    | needsNoPreview parked =>
      right
      cases hgiven
      exact heffect
    | _ => cases hgiven

/-- What every turn of a running scheduler keeps holds as long as it runs. -/
theorem invariant_after {P : Run → Prop}
    (hstep : ∀ r t, r.running = true → t.ends = false → P r → P (r.take t))
    (hrunning : (r.after turns).running = true) (h : P r) : P (r.after turns) := by
  induction turns generalizing r with
  | nil => exact h
  | cons t turns ih =>
    obtain ⟨hr, ht⟩ := running_take.mp (running_of_after hrunning)
    exact ih hrunning (hstep r t hr ht h)

/-- The same where the renderer keeps its promise. -/
theorem invariant_after_of_admits {P : Run → Prop}
    (hstep : ∀ r t, r.running = true → t.ends = false → r.Admits t → P r → P (r.take t))
    (hrunning : (r.after turns).running = true) (hadmits : r.AdmitsAll turns) (h : P r) :
    P (r.after turns) := by
  induction turns generalizing r with
  | nil => exact h
  | cons t turns ih =>
    obtain ⟨hr, ht⟩ := running_take.mp (running_of_after hrunning)
    exact ih hrunning hadmits.2 (hstep r t hr ht hadmits.1 h)

/-- A run takes no generation back. -/
theorem generation_le_after (r : Run) (turns : List Turn) :
    r.scheduler.generation ≤ (r.after turns).scheduler.generation := by
  induction turns generalizing r with
  | nil => exact Nat.le_refl _
  | cons t turns ih =>
    refine Nat.le_trans ?_ (ih (r.take t))
    cases hrunning : r.running with
    | false => exact Nat.le_of_eq (by rw [take_of_stopped hrunning])
    | true =>
      rw [take_of_running hrunning]
      exact generation_le_turn r.scheduler t

end Run

end Scheduler

end SongPreview
