import SongPreview.Proofs.Scheduler.Current
import Mathlib.Data.List.Basic
import Mathlib.Data.List.Induction

/-!
# What becomes of a refresh

A refresh lets the latest document wait although it was accepted already. It waits in
the same place as any other change, and any later change that leads back to what was
accepted empties that place. This file says exactly when a refresh is dropped before
its generation is given out, and gives the smallest run in which that happens.
-/

namespace SongPreview.Scheduler

variable {s : Scheduler} {t : Turn}

/-- Whether a turn makes the scheduler consider its document without force: the document
is told anew, or it is to be seen in another view. -/
def reconsiders (s : Scheduler) : Turn → Bool
  | .event _ (.edit _) => true
  | .event _ (.setPane pane) => pane ≠ s.scene.pane
  | _ => false

/-- Whether a turn is a refresh. -/
def Turn.isRefresh : Turn → Bool
  | .event _ .refresh => true
  | _ => false

/-- Some turn made the scheduler consider its document without force, and no refresh
came after it. -/
def Run.Unforced (r : Run) (turns : List Turn) : Prop :=
  ∃ before t later, turns = before ++ t :: later ∧
    (r.after before).scheduler.reconsiders t = true ∧ ∀ u ∈ later, u.isRefresh = false

/-- A turn that considers nothing and gives out no generation leaves what waits, and all
that decides whether it is current. -/
theorem turn_keeps_waiting (ht : t.ends = false) (hrefresh : t.isRefresh = false)
    (hreconsiders : s.reconsiders t = false)
    (hgeneration : (s.turn t).1.generation = s.generation) :
    (s.turn t).1.debouncer = s.debouncer ∧ (s.turn t).1.latest = s.latest ∧
      (s.turn t).1.accepted = s.accepted ∧ (s.turn t).1.scene.pane = s.scene.pane := by
  cases t with
  | answer result =>
    obtain ⟨inFlight, scene, hpane, hcomplete⟩ := complete_fst result s
    simp only [turn, hcomplete, hpane, and_self]
  | event now event =>
    rw [turn_event ht]
    cases event with
    | edit document => cases hreconsiders
    | setPane pane =>
      have hpane : pane = s.scene.pane := by simpa [reconsiders] using hreconsiders
      simp only [dispatch, if_pos hpane, and_self]
    | refresh => cases hrefresh
    | clearLog => exact ⟨rfl, rfl, rfl, rfl⟩
    | notice d => exact ⟨rfl, rfl, rfl, rfl⟩
    | shutdown => cases ht
  | hangUp => cases ht
  | timer now =>
    simp only [turn] at hgeneration ⊢
    rcases expire_cases now s with ⟨_, hnot⟩ | ⟨p, _, _, hdue⟩
    · simp only [hnot, and_self]
    · -- what is due is accepted, with a generation of its own
      rw [hdue, accept_generation] at hgeneration
      simp only [Nat.add_eq_left, reduceCtorEq] at hgeneration

/-- A document that is considered without force does not wait if it was accepted. -/
theorem pending_considerLatest_of_accepted {now : Nat} {document : Document}
    (hlatest : (s.considerLatest now false).1.latest = some document)
    (haccepted : (s.considerLatest now false).1.accepted =
      some (document.fingerprint (s.considerLatest now false).1.scene.pane)) :
    (s.considerLatest now false).1.debouncer.pending = none := by
  obtain ⟨debouncer, hconsider⟩ := considerLatest_fst now false s
  simp only [hconsider] at hlatest haccepted
  rw [considerLatest_of_accepted hlatest haccepted]
  rfl

/-- Nothing waits after a turn that leads back to what was accepted. -/
theorem pending_turn_of_reconsiders {document : Document} (ht : t.ends = false)
    (hreconsiders : s.reconsiders t = true) (hlatest : (s.turn t).1.latest = some document)
    (haccepted : (s.turn t).1.accepted =
      some (document.fingerprint (s.turn t).1.scene.pane)) :
    (s.turn t).1.debouncer.pending = none := by
  cases t with
  | answer result => cases hreconsiders
  | event now event =>
    rw [turn_event ht] at hlatest haccepted ⊢
    cases event with
    | edit d => exact pending_considerLatest_of_accepted hlatest haccepted
    | setPane pane =>
      have hpane : pane ≠ s.scene.pane := by simpa [reconsiders] using hreconsiders
      simp only [dispatch, if_neg hpane, revise] at hlatest haccepted ⊢
      exact pending_considerLatest_of_accepted hlatest haccepted
    | refresh => cases hreconsiders
    | clearLog => cases hreconsiders
    | notice d => cases hreconsiders
    | shutdown => cases hreconsiders
  | hangUp => cases hreconsiders
  | timer now => cases hreconsiders

/-- Something waits after a refresh. -/
theorem pending_turn_of_isRefresh (hlatest : s.latest ≠ none) (hrefresh : t.isRefresh = true) :
    (s.turn t).1.debouncer.pending ≠ none := by
  obtain ⟨document, hdocument⟩ := Option.ne_none_iff_exists'.mp hlatest
  cases t with
  | answer result => cases hrefresh
  | event now event =>
    cases event with
    | refresh =>
      rw [turn_event rfl]
      simp only [dispatch, considerLatest_of_moved hdocument (Or.inl rfl), Debouncer.push, ne_eq,
        reduceCtorEq, not_false_eq_true]
    | edit d => cases hrefresh
    | setPane pane => cases hrefresh
    | clearLog => cases hrefresh
    | notice d => cases hrefresh
    | shutdown => cases hrefresh
  | hangUp => cases hrefresh
  | timer now => cases hrefresh

namespace Run

/-- Whether the last consideration was unforced depends on the last turn first. -/
theorem unforced_append_singleton {r : Run} {turns : List Turn} :
    r.Unforced (turns ++ [t]) ↔
      (r.after turns).scheduler.reconsiders t = true ∨
        r.Unforced turns ∧ t.isRefresh = false := by
  constructor
  · rintro ⟨before, u, later, hturns, hu, hlater⟩
    rcases split_concat hturns with ⟨rfl, rfl, rfl⟩ | ⟨rest, rfl, rfl⟩
    · exact Or.inl hu
    · exact Or.inr ⟨⟨before, u, rest, rfl, hu, fun w hw => hlater w (List.mem_append_left _ hw)⟩,
        hlater t (List.mem_append_right _ (List.mem_singleton_self t))⟩
  · rintro (ht | ⟨⟨before, u, later, rfl, hu, hlater⟩, ht⟩)
    · exact ⟨turns, t, [], rfl, ht, nofun⟩
    · refine ⟨before, u, later ++ [t], by rw [List.append_assoc, List.cons_append], hu, ?_⟩
      intro w hw
      rcases List.mem_append.mp hw with hw | hw
      · exact hlater w hw
      · rw [List.mem_singleton.mp hw]
        exact ht

/-- While a current scheduler with a document gives out no generation and something waits at
first, nothing waits any more exactly if it is back at what was accepted and was led there
without force. -/
theorem pending_eq_none_iff {r : Run} (hcurrent : r.scheduler.Current)
    (hpending : r.scheduler.debouncer.pending ≠ none) {turns : List Turn}
    (hrunning : (r.after turns).running = true)
    (hgeneration : (r.after turns).scheduler.generation = r.scheduler.generation) :
    (r.after turns).scheduler.debouncer.pending = none ↔
      (∃ document, (r.after turns).scheduler.latest = some document ∧
        (r.after turns).scheduler.accepted =
          some (document.fingerprint (r.after turns).scheduler.scene.pane)) ∧
      r.Unforced turns := by
  induction turns using List.reverseRecOn with
  | nil =>
    refine ⟨fun h => absurd h hpending, ?_⟩
    rintro ⟨_, before, t, later, hturns, _⟩
    simp only [List.nil_eq, List.append_eq_nil_iff, reduceCtorEq, and_false] at hturns
  | append_singleton turns t ih =>
    have hafter : (r.after (turns ++ [t])) = (r.after turns).take t := after_append r turns [t]
    rw [hafter] at hrunning hgeneration ⊢
    obtain ⟨hbefore, ht⟩ := running_take.mp hrunning
    have hcurrent' := (current_after hcurrent hbefore).turn ht
    have hle := generation_le_turn (r.after turns).scheduler t
    have hle' := generation_le_after r turns
    simp only [take_of_running hbefore] at hgeneration ⊢
    rw [unforced_append_singleton]
    specialize ih hbefore (by omega)
    have hlatest : (r.after turns).scheduler.latest ≠ none := by
      intro hnone
      obtain ⟨⟨document, hdocument, _⟩, _⟩ := ih.mp ((current_after hcurrent hbefore).idle hnone)
      rw [hnone] at hdocument
      cases hdocument
    by_cases hreconsiders : (r.after turns).scheduler.reconsiders t = true
    · constructor
      · intro hnone
        obtain ⟨document, hdocument⟩ :=
          Option.ne_none_iff_exists'.mp (latest_turn_ne_none hlatest t)
        rcases hcurrent'.latest document hdocument with hwaits | ⟨_, haccepted⟩
        · rw [hnone] at hwaits
          cases hwaits
        · exact ⟨⟨document, hdocument, haccepted⟩, Or.inl hreconsiders⟩
      · rintro ⟨⟨document, hdocument, haccepted⟩, _⟩
        exact pending_turn_of_reconsiders ht hreconsiders hdocument haccepted
    · by_cases hrefresh : t.isRefresh = true
      · have hpending := pending_turn_of_isRefresh hlatest hrefresh
        simp only [hpending, hreconsiders, hrefresh, Bool.false_eq_true, Bool.true_eq_false,
          and_false, or_self]
      · simp only [Bool.not_eq_true] at hreconsiders hrefresh
        obtain ⟨hp, hl, ha, hv⟩ := turn_keeps_waiting ht hrefresh hreconsiders (by omega)
        rw [hp, hl, ha, hv, ih]
        simp only [hreconsiders, hrefresh, Bool.false_eq_true, false_or, and_true]

/-- **What becomes of a refresh.** A refresh of a document is followed by any turns that give
out no generation and do not stop the scheduler. It is dropped exactly if the document and
the view are back at what was last accepted, and if, since the last refresh, the document
was told anew or the view changed. Nothing else that is told, and no answer, drops it. -/
theorem refresh_dropped_iff {r : Run} (hr : r.Reachable) (now : Nat) (rest : List Turn)
    (hlatest : r.scheduler.latest ≠ none)
    (hrunning : ((r.take (.event now .refresh)).after rest).running = true)
    (hgeneration : ((r.take (.event now .refresh)).after rest).scheduler.generation =
      r.scheduler.generation) :
    ((r.take (.event now .refresh)).after rest).scheduler.debouncer.pending = none ↔
      (∃ document,
        ((r.take (.event now .refresh)).after rest).scheduler.latest = some document ∧
        ((r.take (.event now .refresh)).after rest).scheduler.accepted =
          some (document.fingerprint
            ((r.take (.event now .refresh)).after rest).scheduler.scene.pane)) ∧
      (r.take (.event now .refresh)).Unforced rest := by
  have hrefreshed := running_of_after hrunning
  have hbefore : r.running = true := (running_take.mp hrefreshed).1
  have hturn : (r.take (.event now .refresh)).scheduler =
      (r.scheduler.turn (.event now .refresh)).1 := by
    rw [take_of_running hbefore]
  have hcurrent : (r.take (.event now .refresh)).scheduler.Current := by
    rw [hturn]
    exact (hr.current hbefore).turn rfl
  have hpending : (r.take (.event now .refresh)).scheduler.debouncer.pending ≠ none := by
    rw [hturn]
    exact pending_turn_of_isRefresh hlatest rfl
  have hsame : (r.take (.event now .refresh)).scheduler.generation = r.scheduler.generation := by
    rw [hturn, turn_event rfl]
    exact (sameRenderings_dispatch now .refresh r.scheduler).generation
  exact pending_eq_none_iff hcurrent hpending hrunning (hgeneration.trans hsame.symm)

/-- A song that was rendered once in its scene. -/
private def renderedOnce : Run :=
  (start (.new (.unsaved "Untitled-1") .editorAndPreview) 300).after
    [.event 0 (.edit ⟨"[C]I heard", {}, .unsaved "Untitled-1"⟩), .timer 300]

/-- The view of a song changes and changes back. -/
private def viewThereAndBack : List Turn :=
  [.event 500 (.setPane .editorOnly), .event 550 .clearLog, .event 600 (.setPane .editorAndPreview)]

/-- A refresh is dropped when the view changes and changes back while it waits. -/
theorem refresh_dropped_by_view :
    renderedOnce.Reachable ∧ renderedOnce.scheduler.latest ≠ none ∧
      ((renderedOnce.take (.event 400 .refresh)).after viewThereAndBack).running = true ∧
      ((renderedOnce.take (.event 400 .refresh)).after viewThereAndBack).scheduler.generation =
        renderedOnce.scheduler.generation ∧
      ((renderedOnce.take (.event 400 .refresh)).after
        viewThereAndBack).scheduler.debouncer.pending = none := by
  have hreachable : renderedOnce.Reachable := ⟨_, _, _, rfl⟩
  obtain ⟨hlatest, hrunning, hgeneration⟩ :
      renderedOnce.scheduler.latest ≠ none ∧
        ((renderedOnce.take (.event 400 .refresh)).after viewThereAndBack).running = true ∧
        ((renderedOnce.take (.event 400 .refresh)).after viewThereAndBack).scheduler.generation =
          renderedOnce.scheduler.generation := by decide +kernel
  have hiff := refresh_dropped_iff hreachable 400 viewThereAndBack hlatest hrunning hgeneration
  refine ⟨hreachable, hlatest, hrunning, hgeneration, hiff.mpr ⟨?_, ?_⟩⟩
  · exact ⟨⟨"[C]I heard", {}, .unsaved "Untitled-1"⟩, by decide +kernel⟩
  · exact ⟨[.event 500 (.setPane .editorOnly), .event 550 .clearLog],
      .event 600 (.setPane .editorAndPreview), [], rfl, by decide +kernel, nofun⟩

/-- The text that was accepted is told again. -/
private def sameTextAgain : List Turn :=
  [.event 1100 (.edit ⟨"[C]I heard", {}, .unsaved "Untitled-1"⟩)]

/-- A refresh does not always wait until its generation is given out: here the same text is
told again. -/
theorem not_refresh_always_waits :
    ¬ ∀ (r : Run) (now : Nat) (rest : List Turn), r.Reachable → r.scheduler.latest ≠ none →
      ((r.take (.event now .refresh)).after rest).running = true →
      ((r.take (.event now .refresh)).after rest).scheduler.generation =
        r.scheduler.generation →
      ((r.take (.event now .refresh)).after rest).scheduler.debouncer.pending ≠ none := by
  intro h
  obtain ⟨hlatest, hrunning, hgeneration, hdropped⟩ :
      renderedOnce.scheduler.latest ≠ none ∧
        ((renderedOnce.take (.event 1000 .refresh)).after sameTextAgain).running = true ∧
        ((renderedOnce.take (.event 1000 .refresh)).after sameTextAgain).scheduler.generation =
          renderedOnce.scheduler.generation ∧
        ((renderedOnce.take (.event 1000 .refresh)).after
          sameTextAgain).scheduler.debouncer.pending = none := by decide +kernel
  exact h renderedOnce 1000 sameTextAgain ⟨_, _, _, rfl⟩ hlatest hrunning hgeneration hdropped

end Run

end SongPreview.Scheduler
