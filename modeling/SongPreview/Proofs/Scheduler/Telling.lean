import SongPreview.Proofs.Scheduler.Current

/-!
# What a scheduler was told last

Every turn replaces the latest document, and the view, by what it is told, if it is told any.
So after a run they are what was told last, whatever else happened in between.
-/

namespace SongPreview

namespace Event

/-- The document that is told, if one is. -/
def document? : Event → Option Document
  | .edit document => some document
  | _ => none

/-- The view that is asked for, if one is. -/
def pane? : Event → Option Pane
  | .setPane pane => some pane
  | _ => none

end Event

namespace Scheduler

variable {β : Type} {r : Run} {turns : List Turn}

namespace Turn

/-- What is told, if something is. -/
def event? : Turn → Option Event
  | .event _ told => some told
  | _ => none

theorem document?_eq (t : Turn) : t.document? = t.event?.bind Event.document? := by
  cases t with
  | event now event => cases event <;> rfl
  | _ => rfl

theorem pane?_eq (t : Turn) : t.pane? = t.event?.bind Event.pane? := by
  cases t with
  | event now event => cases event <;> rfl
  | _ => rfl

theorem filterMap_document? (turns : List Turn) :
    (turns.filterMap Turn.event?).filterMap Event.document? = turns.filterMap Turn.document? := by
  rw [List.filterMap_filterMap, funext document?_eq]

theorem filterMap_pane? (turns : List Turn) :
    (turns.filterMap Turn.event?).filterMap Event.pane? = turns.filterMap Turn.pane? := by
  rw [List.filterMap_filterMap, funext pane?_eq]

/-- Only what is told and the end of all telling can stop a scheduler. -/
theorem event?_of_ends {t : Turn} (h : t.ends = true) :
    t = .hangUp ∨ t.event? = some .shutdown := by
  cases t with
  | event now event => cases event <;> first | exact .inr rfl | cases h
  | hangUp => exact .inl rfl
  | _ => cases h

end Turn

namespace Run

theorem running_after_of_not_ends (hrunning : r.running = true)
    (hturns : ∀ t ∈ turns, t.ends = false) : (r.after turns).running = true := by
  induction turns generalizing r with
  | nil => exact hrunning
  | cons t turns ih =>
    obtain ⟨ht, hturns⟩ := List.forall_mem_cons.mp hturns
    exact ih (running_take.mpr ⟨hrunning, ht⟩) hturns

/-- A run goes on as long as the scheduler is not shut down and somebody is left to tell it. -/
theorem running_after (hrunning : r.running = true) (hstays : .hangUp ∉ turns)
    (hshutdown : .shutdown ∉ turns.filterMap Turn.event?) : (r.after turns).running = true := by
  apply running_after_of_not_ends hrunning
  intro t ht
  by_contra hends
  rcases Turn.event?_of_ends (Bool.not_eq_false _ ▸ hends) with rfl | hevent
  · exact hstays ht
  · exact hshutdown (List.mem_filterMap.mpr ⟨t, ht, hevent⟩)

theorem Reachable.after (h : r.Reachable) (turns : List Turn) : (r.after turns).Reachable := by
  obtain ⟨scene, debounce, before, rfl⟩ := h
  exact ⟨scene, debounce, before ++ turns, (after_append _ _ _).symm⟩

/-- What every turn replaces by what it is told, if it is told any, is in the end what was told
last. -/
theorem last_told_after (value : Scheduler → Option β) (told : Event → Option β)
    (hstep : ∀ (s : Scheduler) (t : Turn), value (s.turn t).1 = (t.event?.bind told).or (value s))
    (hrunning : (r.after turns).running = true) :
    value (r.after turns).scheduler =
      ((turns.filterMap Turn.event?).filterMap told).getLast?.or (value r.scheduler) := by
  induction turns generalizing r with
  | nil => rfl
  | cons t turns ih =>
    have htake : (r.take t).scheduler = (r.scheduler.turn t).1 := by
      rw [take_of_running (running_take.mp (running_of_after hrunning)).1]
    rw [after_cons, ih hrunning, htake, hstep]
    cases hevent : t.event? with
    | none => simp only [List.filterMap_cons, hevent, Option.bind_none, Option.none_or]
    | some event =>
      simp only [List.filterMap_cons, hevent, Option.bind_some]
      cases told event with
      | none => rfl
      | some value =>
        simp only [List.getLast?_cons, Option.some_or]
        cases ((turns.filterMap Turn.event?).filterMap told).getLast? <;> rfl

theorem latest_after (hrunning : (r.after turns).running = true) :
    (r.after turns).scheduler.latest =
      ((turns.filterMap Turn.event?).filterMap Event.document?).getLast?.or
        r.scheduler.latest := by
  refine last_told_after Scheduler.latest Event.document? (fun s t => ?_) hrunning
  rw [latest_turn, Turn.document?_eq]

theorem view_after (hrunning : (r.after turns).running = true) :
    (r.after turns).scheduler.scene.pane =
      ((turns.filterMap Turn.event?).filterMap Event.pane?).getLast?.getD
        r.scheduler.scene.pane := by
  apply Option.some.inj
  rw [← Option.or_some]
  refine last_told_after (fun s => some s.scene.pane) Event.pane? (fun s t => ?_) hrunning
  rw [(told_turn s t).2, Turn.pane?_eq, ← Option.or_some]

end Run

end Scheduler

end SongPreview
