import SongPreview.Proofs.Scheduler.Runs

/-!
# Superseded renderings cannot be observed

A rendering is superseded once a later generation was given out before its answer came.
Whether, when, in which order and with what such answers come makes no difference: not
to what observers see, not to what is handed over or cancelled, and not to any decision
of the scheduler afterwards. Two runs are compared by the turns that are left when the
superseded answers are taken out, each judged by the history of its own run.
-/

namespace SongPreview.Scheduler.Run

variable {r q : Run} {t : Turn} {turns : List Turn}

/-- Whether a turn brings an answer for which it is too late: a later generation was given
out before. -/
def superseded (r : Run) : Turn → Bool
  | .answer result => r.givenOut.any fun generation => result.generation < generation
  | _ => false

/-- The turns of a run without its superseded answers. -/
def unsuperseded : Run → List Turn → List Turn
  | _, [] => []
  | r, t :: turns =>
    if r.superseded t then (r.take t).unsuperseded turns
    else t :: (r.take t).unsuperseded turns

/-- Two runs that nobody can tell apart, now or later: only remarks and the answers that
came may differ. -/
structure Alike (r q : Run) : Prop where
  scheduler : r.scheduler = q.scheduler
  running : r.running = q.running
  published : r.published = q.published
  handed : r.handed = q.handed
  cancelled : r.cancelled = q.cancelled

/-- The same turn keeps two runs alike. -/
theorem Alike.take (h : r.Alike q) (t : Turn) : (r.take t).Alike (q.take t) := by
  cases hrunning : r.running with
  | false =>
    have hq : q.running = false := h.running.symm.trans hrunning
    rw [take_of_stopped hrunning, take_of_stopped hq]
    exact h
  | true =>
    have hq : q.running = true := h.running.symm.trans hrunning
    constructor
    · simp only [take_of_running hrunning, take_of_running hq, h.scheduler]
    · simp only [take_of_running hrunning, take_of_running hq]
    · rw [published_take hrunning, published_take hq, h.published, h.scheduler]
    · rw [handed_take hrunning, handed_take hq, h.handed, h.scheduler]
    · rw [cancelled_take hrunning, cancelled_take hq, h.cancelled, h.scheduler]

/-- No generation that was given out is later than the last one. -/
def Bounded (r : Run) : Prop :=
  ∀ generation ∈ r.givenOut, generation ≤ r.scheduler.generation

theorem bounded_start (scene : Scene) (debounce : Nat) : (start scene debounce).Bounded := nofun

/-- Each turn gives out at most the next generation. -/
theorem Bounded.take (h : r.Bounded) (t : Turn) : (r.take t).Bounded := by
  cases hrunning : r.running with
  | false => rwa [take_of_stopped hrunning]
  | true =>
    intro generation hmem
    rw [givenOut_take hrunning] at hmem
    simp only [take_of_running hrunning]
    rcases turn_accepts_or_keeps r.scheduler t with
      ⟨now, p, _, _, _, haccept⟩ | ⟨hkeeps, _, _, hnothing⟩
    · rw [haccept, accept_givenOut, List.mem_append, List.mem_singleton] at hmem
      rw [haccept, accept_generation]
      rcases hmem with hbefore | hnew
      · exact Nat.le_succ_of_le (h generation hbefore)
      · exact Nat.le_of_eq hnew
    · rw [hnothing, List.append_nil] at hmem
      rw [hkeeps]
      exact h generation hmem

/-- A superseded answer leaves a run alike: nothing comes of it but a remark. -/
theorem alike_take_of_superseded (hbounded : r.Bounded) (h : r.superseded t = true) :
    (r.take t).Alike r := by
  cases t with
  | answer result =>
    obtain ⟨generation, hmem, hlt⟩ := List.any_eq_true.mp h
    have hle := hbounded generation hmem
    have hne : result.generation ≠ r.scheduler.generation := by
      simp only [decide_eq_true_eq] at hlt
      omega
    cases hrunning : r.running with
    | false =>
      rw [take_of_stopped hrunning]
      exact ⟨rfl, rfl, rfl, rfl, rfl⟩
    | true =>
      have hturn : r.scheduler.turn (.answer result) =
          (r.scheduler, [.remark (.stale result.generation)]) := complete_of_ne hne
      constructor
      · simp only [take_of_running hrunning, hturn]
      · simp only [take_of_running hrunning, hrunning, Turn.ends, Bool.not_false]
      · rw [published_take hrunning, hturn]
        exact List.append_nil _
      · rw [handed_take hrunning, hturn]
        exact List.append_nil _
      · rw [cancelled_take hrunning, hturn]
        exact List.append_nil _
  | event now event => cases h
  | hangUp => cases h
  | timer now => cases h

/-- Taking the superseded answers out of a run leaves it alike. -/
theorem alike_after_unsuperseded (hbounded : r.Bounded) (h : r.Alike q) :
    (r.after turns).Alike (q.after (r.unsuperseded turns)) := by
  induction turns generalizing r q with
  | nil => exact h
  | cons t turns ih =>
    rw [unsuperseded]
    by_cases ht : r.superseded t = true
    · rw [if_pos ht]
      have hsame := alike_take_of_superseded hbounded ht
      refine ih (hbounded.take t) ?_
      exact ⟨hsame.scheduler.trans h.scheduler, hsame.running.trans h.running,
        hsame.published.trans h.published, hsame.handed.trans h.handed,
        hsame.cancelled.trans h.cancelled⟩
    · rw [if_neg ht, after_cons]
      exact ih (hbounded.take t) (h.take t)

/-- **Superseded renderings cannot be observed.** Two runs of one scheduler with the same
events, the same ends of waits and the same answers of renderings that were not superseded
publish the same scenes and hand over the same requests, in the same order. They also
cancel the same renderings and end in the same state, so that nothing later tells them
apart. -/
theorem superseded_unobservable (scene : Scene) (debounce : Nat) (turns turns' : List Turn)
    (h : (start scene debounce).unsuperseded turns = (start scene debounce).unsuperseded turns') :
    let r := (start scene debounce).after turns
    let r' := (start scene debounce).after turns'
    r.published = r'.published ∧ r.handed = r'.handed ∧ r.cancelled = r'.cancelled ∧
      r.scheduler = r'.scheduler ∧ r.running = r'.running := by
  intro r r'
  have hrefl : (start scene debounce).Alike (start scene debounce) := ⟨rfl, rfl, rfl, rfl, rfl⟩
  have hr : r.Alike _ := alike_after_unsuperseded (bounded_start scene debounce) hrefl
  have hr' : r'.Alike _ := alike_after_unsuperseded (bounded_start scene debounce) hrefl
  rw [h] at hr
  exact ⟨hr.published.trans hr'.published.symm, hr.handed.trans hr'.handed.symm,
    hr.cancelled.trans hr'.cancelled.symm, hr.scheduler.trans hr'.scheduler.symm,
    hr.running.trans hr'.running.symm⟩

/-- A song is rendered, and rendered again before the first answer comes. -/
private def renderedAgain : List Turn :=
  [.event 0 (.edit ⟨"[C]I heard", {}, .unsaved "Untitled-1"⟩), .timer 300, .event 400 .refresh,
    .timer 700]

/-- The first rendering may succeed late and twice, or never be heard of again. -/
theorem superseded_success_unobservable :
    let opened := start (.new (.unsaved "Untitled-1") .editorAndPreview) 300
    let late : Turn := .answer ⟨1, .success "old".toUTF8, []⟩
    let current : Turn := .answer ⟨2, .failed (some 1), []⟩
    opened.unsuperseded (renderedAgain ++ [late, current, late]) =
        opened.unsuperseded (renderedAgain ++ [current]) ∧
      (opened.after (renderedAgain ++ [late, current, late])).published =
        (opened.after (renderedAgain ++ [current])).published := by
  intro opened late current
  have h : opened.unsuperseded (renderedAgain ++ [late, current, late]) =
      opened.unsuperseded (renderedAgain ++ [current]) := by decide +kernel
  exact ⟨h, (superseded_unobservable _ _ _ _ h).1⟩

end SongPreview.Scheduler.Run
