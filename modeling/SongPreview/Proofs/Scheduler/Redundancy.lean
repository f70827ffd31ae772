import SongPreview.Proofs.Scheduler.Refreshing
import Mathlib.Data.List.Chain

/-!
# Nothing is rendered twice in a row

What waits is compared with what was accepted when it is told, but it is accepted only at the
end of the wait, after any number of other turns. In between neither side of the comparison
moves without the other: only an acceptance changes what was accepted, and it takes away what
waited. So without a refresh every generation is given to another fingerprint than the one
before it, and none is given out while the document and the view are back at the last one.
-/

namespace SongPreview.Scheduler

variable {s : Scheduler} {t : Turn} {now : Nat}

/-! ### What gets a generation -/

/-- The document and the view that a turn gives the next generation to, if it gives one out. -/
def acceptance? (s : Scheduler) : Turn → Option Request
  | .timer now =>
    (s.debouncer.takeIfReady now).1.map fun p => ⟨s.generation + 1, p.document, p.pane⟩
  | _ => none

/-- A turn gives the next generation to what waited, or gives none out. -/
theorem acceptance_cases (s : Scheduler) (t : Turn) :
    (∃ p, s.debouncer.pending = some p ∧
        s.acceptance? t = some ⟨s.generation + 1, p.document, p.pane⟩ ∧
        s.turn t = accept p { s with debouncer := s.debouncer.clear }) ∨
      s.acceptance? t = none ∧ (s.turn t).1.generation = s.generation ∧
        (s.turn t).1.accepted = s.accepted ∧ (s.turn t).2.filterMap Effect.request? = [] ∧
        (s.turn t).2.filterMap Effect.givenOut? = [] := by
  rcases turn_accepts_or_keeps s t with ⟨now, p, rfl, hpending, hready, haccept⟩ | hkeeps
  · left
    refine ⟨p, hpending, ?_, haccept⟩
    simp only [acceptance?, Debouncer.takeIfReady, hready, if_true, hpending, Option.map_some]
  · right
    refine ⟨?_, hkeeps⟩
    cases t with
    | timer now =>
      rcases expire_cases now s with ⟨hready, _⟩ | ⟨p, _, _, hdue⟩
      · simp only [acceptance?, Debouncer.takeIfReady, hready, Bool.false_eq_true, if_false,
          Option.map_none]
      · -- what is due gets a generation of its own
        have hgeneration := hkeeps.1
        simp only [turn, hdue, accept_generation, Nat.add_eq_left, reduceCtorEq] at hgeneration
    | _ => rfl

/-! ### What waits -/

/-- What waits is not what was last accepted. -/
def Moved (s : Scheduler) : Prop :=
  ∀ p, s.debouncer.pending = some p →
    p.fingerprint = p.document.fingerprint p.pane ∧ s.accepted ≠ some p.fingerprint

theorem moved_of_pending_eq_none (h : s.debouncer.pending = none) : s.Moved := by
  intro p hp
  rw [h] at hp
  cases hp

/-- What is considered without force waits only if it is not what was last accepted. -/
theorem Moved.considerLatest (h : s.Moved) (now : Nat) : (s.considerLatest now false).1.Moved := by
  rcases Option.eq_none_or_eq_some s.latest with hlatest | ⟨document, hlatest⟩
  · rwa [considerLatest_of_none hlatest]
  · by_cases haccepted : s.accepted = some (document.fingerprint s.scene.pane)
    · rw [considerLatest_of_accepted hlatest haccepted]
      exact moved_of_pending_eq_none rfl
    · rw [considerLatest_of_moved hlatest (Or.inr haccepted)]
      intro p hp
      obtain rfl := Option.some.inj hp
      exact ⟨rfl, haccepted⟩

/-- Nothing that is told lets a document wait that was accepted last, but a refresh. -/
theorem Moved.dispatch {event : Event} (h : s.Moved) (hevent : event ≠ .refresh) (now : Nat) :
    (s.dispatch now event).1.Moved := by
  cases event with
  | edit document =>
    exact Moved.considerLatest (s := { s with latest := some document }) h now
  | setPane pane =>
    simp only [Scheduler.dispatch]
    split
    · exact h
    · exact Moved.considerLatest (s := { s with scene := { s.scene with pane } }) h now
  | refresh => exact absurd rfl hevent
  | clearLog => exact h
  | notice d => exact h
  | shutdown => exact h

/-- An acceptance takes away what waited, and no other turn but a refresh lets a document wait
that was accepted last. -/
theorem Moved.turn (h : s.Moved) (ht : t.isRefresh = false) : (s.turn t).1.Moved := by
  cases t with
  | answer result =>
    obtain ⟨inFlight, scene, _, hcomplete⟩ := complete_fst result s
    simp only [Scheduler.turn, hcomplete]
    exact h
  | event now event =>
    have hevent : event ≠ .refresh := by
      rintro rfl
      cases ht
    simp only [Scheduler.turn]
    split
    · exact moved_of_pending_eq_none rfl
    · exact h.dispatch hevent now
  | hangUp => exact moved_of_pending_eq_none rfl
  | timer now =>
    simp only [Scheduler.turn]
    rcases expire_cases now s with ⟨_, hnot⟩ | ⟨p, _, _, hdue⟩
    · rwa [hnot]
    · rw [hdue]
      exact moved_of_pending_eq_none (by rw [accept_debouncer]; rfl)

namespace Run

variable {r : Run} {accepted : List Request} {turns : List Turn}

/-! ### Runs -/

/-- What gets a generation at some turns, in order. -/
def acceptances (r : Run) : List Turn → List Request
  | [] => []
  | t :: turns =>
    (if r.running then (r.scheduler.acceptance? t).toList else []) ++ (r.take t).acceptances turns

/-- A generation follows another one, and was given to another fingerprint. -/
def Renews (earlier later : Request) : Prop :=
  later.generation = earlier.generation + 1 ∧
    later.document.fingerprint later.pane ≠ earlier.document.fingerprint earlier.pane

/-- Some requests are those that a run gave its generations to, each with a fingerprint of its own,
and what waits would come next. -/
structure Renewed (r : Run) (accepted : List Request) : Prop where
  givenOut : r.givenOut = accepted.map Request.generation
  handed : r.handed = accepted.filter fun request => request.pane.showsPreview
  renews : accepted.IsChain Renews
  generation : ∀ request, accepted.getLast? = some request →
    request.generation = r.scheduler.generation
  fingerprint : r.scheduler.accepted =
    accepted.getLast?.map fun request => request.document.fingerprint request.pane
  moved : r.scheduler.Moved

theorem renewed_start (scene : Scene) (debounce : Nat) : (start scene debounce).Renewed [] where
  givenOut := rfl
  handed := rfl
  renews := .nil
  generation := nofun
  fingerprint := rfl
  moved := moved_of_pending_eq_none rfl

/-- What gets the next generation was not accepted last. -/
theorem Renewed.take (h : r.Renewed accepted) (hrunning : r.running = true)
    (ht : t.isRefresh = false) :
    (r.take t).Renewed (accepted ++ (r.scheduler.acceptance? t).toList) := by
  have hmoved : (r.take t).scheduler.Moved := by
    rw [take_of_running hrunning]
    exact h.moved.turn ht
  rcases acceptance_cases r.scheduler t with
    ⟨p, hpending, hacceptance, hturn⟩ | ⟨hnone, hgeneration, haccepted, hrequests, hgiven⟩
  · obtain ⟨hfingerprint, hnew⟩ := h.moved p hpending
    rw [hacceptance, Option.toList_some]
    refine ⟨?_, ?_, ?_, ?_, ?_, hmoved⟩
    · rw [givenOut_take hrunning, hturn, accept_givenOut, h.givenOut, List.map_append]
      rfl
    · rw [handed_take hrunning, hturn, accept_requests, h.handed, List.filter_append]
      cases hshows : p.pane.showsPreview <;> simp [hshows]
    · refine h.renews.append (.singleton _) ?_
      intro last hlast next hnext
      obtain rfl := Option.some.inj hnext
      refine ⟨by rw [h.generation last hlast], fun heq => hnew ?_⟩
      rw [h.fingerprint, hlast, hfingerprint]
      exact congrArg some heq.symm
    · intro request hrequest
      rw [List.getLast?_concat] at hrequest
      obtain rfl := Option.some.inj hrequest
      rw [take_of_running hrunning, hturn, accept_generation]
    · rw [take_of_running hrunning, hturn, accept_accepted, List.getLast?_concat, hfingerprint]
      rfl
  · rw [hnone, Option.toList_none, List.append_nil]
    refine ⟨?_, ?_, h.renews, ?_, ?_, hmoved⟩
    · rw [givenOut_take hrunning, hgiven, List.append_nil, h.givenOut]
    · rw [handed_take hrunning, hrequests, List.append_nil, h.handed]
    · rw [take_of_running hrunning, hgeneration]
      exact h.generation
    · rw [take_of_running hrunning, haccepted]
      exact h.fingerprint

theorem Renewed.after (h : r.Renewed accepted) (hturns : ∀ t ∈ turns, t.isRefresh = false) :
    (r.after turns).Renewed (accepted ++ r.acceptances turns) := by
  induction turns generalizing r accepted with
  | nil => rwa [acceptances, List.append_nil]
  | cons t turns ih =>
    obtain ⟨ht, hturns⟩ := List.forall_mem_cons.mp hturns
    rw [acceptances, ← List.append_assoc]
    cases hrunning : r.running with
    | false =>
      rw [after_cons, take_of_stopped hrunning, if_neg Bool.false_ne_true, List.append_nil]
      exact ih h hturns
    | true =>
      rw [if_pos rfl]
      exact ih (h.take hrunning ht) hturns

/-- **Nothing is rendered twice in a row.** In a run without a refresh every generation follows the
one before it and is given to another fingerprint; those that are on show are handed over, and
the last fingerprint is the accepted one. While the latest document in the view on show is back
at it nothing waits, and no turn gives a generation out, whatever came before. -/
theorem consecutive_renewed (scene : Scene) (debounce : Nat) (turns : List Turn)
    (hturns : ∀ t ∈ turns, t.isRefresh = false) :
    let r := (start scene debounce).after turns
    let accepted := (start scene debounce).acceptances turns
    (r.givenOut = accepted.map Request.generation ∧
      r.handed = accepted.filter fun request => request.pane.showsPreview) ∧
    (accepted.IsChain fun earlier later =>
      later.generation = earlier.generation + 1 ∧
        later.document.fingerprint later.pane ≠ earlier.document.fingerprint earlier.pane) ∧
    r.scheduler.accepted =
      accepted.getLast?.map (fun request => request.document.fingerprint request.pane) ∧
    (r.running = true → ∀ document, r.scheduler.latest = some document →
      r.scheduler.accepted = some (document.fingerprint r.scheduler.scene.pane) →
      r.scheduler.debouncer.pending = none ∧
        ∀ t, (r.scheduler.turn t).1.generation = r.scheduler.generation) := by
  intro r accepted
  have hrenewed : r.Renewed ([] ++ accepted) := (renewed_start scene debounce).after hturns
  rw [List.nil_append] at hrenewed
  refine ⟨⟨hrenewed.givenOut, hrenewed.handed⟩, hrenewed.renews, hrenewed.fingerprint, ?_⟩
  intro hrunning document hlatest haccepted
  have hcurrent : r.scheduler.Current := Reachable.current ⟨_, _, _, rfl⟩ hrunning
  have hnone : r.scheduler.debouncer.pending = none := by
    rcases hcurrent.latest document hlatest with hwaits | ⟨hnone, _⟩
    · exact absurd haccepted (hrenewed.moved _ hwaits).2
    · exact hnone
  refine ⟨hnone, fun t => ?_⟩
  rcases acceptance_cases r.scheduler t with ⟨p, hpending, _⟩ | ⟨_, hkeeps, _⟩
  · rw [hnone] at hpending
    cases hpending
  · exact hkeeps

/-- A song that is changed and changed back while it waits, hidden and shown again while it is
rendered, and changed for good at the end. -/
private def backAndForth : List Turn :=
  [.event 0 (.edit ⟨"[C]I heard", {}, .unsaved "Untitled-1"⟩), .timer 300,
    .event 400 (.edit ⟨"[F]I heard", {}, .unsaved "Untitled-1"⟩), .event 500 .clearLog,
    .event 600 (.setPane .editorOnly), .answer ⟨1, .success "one".toUTF8, []⟩,
    .event 700 (.edit ⟨"[C]I heard", {}, .unsaved "Untitled-1"⟩),
    .event 800 (.setPane .editorAndPreview), .timer 1100]

/-- A song that is back at what was accepted gets no generation at the end of the wait. -/
theorem none_renewed_back :
    (∀ t ∈ backAndForth, t.isRefresh = false) ∧
      let r := (start (.new (.unsaved "Untitled-1") .editorAndPreview) 300).after backAndForth
      r.running = true ∧ r.givenOut = [1] ∧ r.scheduler.debouncer.pending = none ∧
        (r.scheduler.turn (.timer 1400)).1.generation = 1 := by
  have hturns : ∀ t ∈ backAndForth, t.isRefresh = false := by decide
  refine ⟨hturns, ?_⟩
  intro r
  obtain ⟨hrunning, hgiven, hgeneration, hlatest, haccepted⟩ :
      r.running = true ∧ r.givenOut = [1] ∧ r.scheduler.generation = 1 ∧
        r.scheduler.latest = some ⟨"[C]I heard", {}, .unsaved "Untitled-1"⟩ ∧
        r.scheduler.accepted =
          some (Document.fingerprint ⟨"[C]I heard", {}, .unsaved "Untitled-1"⟩
            r.scheduler.scene.pane) := by
    decide +kernel
  obtain ⟨-, -, -, hback⟩ :=
    consecutive_renewed (.new (.unsaved "Untitled-1") .editorAndPreview) 300 backAndForth hturns
  obtain ⟨hnone, hkeeps⟩ := hback hrunning _ hlatest haccepted
  exact ⟨hrunning, hgiven, hnone, (hkeeps _).trans hgeneration⟩

end Run

end SongPreview.Scheduler
