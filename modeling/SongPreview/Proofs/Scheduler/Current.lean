import SongPreview.Proofs.Scheduler.Runs

/-!
# Requests are always current

The latest document, in the view on show, is never forgotten: it waits, or it is what
was last accepted. The view is kept in the scene, in what waits and in the fingerprint,
and the document twice; this file shows that every turn keeps them in step. What waits
is therefore current at the moment it is handed over.
-/

namespace SongPreview.Scheduler

variable {s : Scheduler} {t : Turn} {now : Nat}

/-- Nothing that was told is forgotten. -/
structure Current (s : Scheduler) : Prop where
  /-- Without a document nothing waits. -/
  idle : s.latest = none → s.debouncer.pending = none
  /-- The latest document waits in the view on show, or was accepted in it. -/
  latest : ∀ document, s.latest = some document →
    s.debouncer.pending = some (.of document s.scene.pane) ∨
      s.debouncer.pending = none ∧ s.accepted = some (document.fingerprint s.scene.pane)

theorem current_ofScene (scene : Scene) (debounce : Nat) : (ofScene scene debounce).Current where
  idle _ := rfl
  latest _ h := nomatch h

/-- What waits is the latest document in the view on show, as a whole. -/
theorem Current.eq_of_pending {p : Pending} (h : s.Current)
    (hpending : s.debouncer.pending = some p) :
    ∃ document, s.latest = some document ∧ p = .of document s.scene.pane := by
  rcases Option.eq_none_or_eq_some s.latest with hlatest | ⟨document, hlatest⟩
  · rw [h.idle hlatest] at hpending
    cases hpending
  · rcases h.latest document hlatest with hwaits | ⟨hnone, _⟩
    · exact ⟨document, hlatest, Option.some.inj (hpending.symm.trans hwaits)⟩
    · rw [hnone] at hpending
      cases hpending

/-- Considering the latest document makes a scheduler current, whatever waited before. -/
theorem current_considerLatest (now : Nat) (force : Bool)
    (hidle : s.latest = none → s.debouncer.pending = none) :
    (s.considerLatest now force).1.Current := by
  rcases Option.eq_none_or_eq_some s.latest with hlatest | ⟨document, hlatest⟩
  · rw [considerLatest_of_none hlatest]
    exact ⟨hidle, fun document h => by rw [hlatest] at h; cases h⟩
  · by_cases hmoved : force = true ∨ s.accepted ≠ some (document.fingerprint s.scene.pane)
    · rw [considerLatest_of_moved hlatest hmoved]
      constructor
      · intro h
        rw [hlatest] at h
        cases h
      · intro d h
        have hd : document = d := Option.some.inj (hlatest.symm.trans h)
        subst hd
        exact Or.inl rfl
    · obtain ⟨hforce, haccepted⟩ := not_or.mp hmoved
      simp only [Bool.not_eq_true, ne_eq, Decidable.not_not] at hforce haccepted
      rw [hforce, considerLatest_of_accepted hlatest haccepted]
      constructor
      · exact fun _ => rfl
      · intro d h
        have hd : document = d := Option.some.inj (hlatest.symm.trans h)
        subst hd
        exact Or.inr ⟨rfl, haccepted⟩

/-- Whatever is told, the scheduler stays current. -/
theorem Current.dispatch (h : s.Current) (now : Nat) (event : Event) :
    (s.dispatch now event).1.Current := by
  cases event with
  | edit document =>
    -- the new document is there, so the condition on what waited is void
    exact current_considerLatest now false nofun
  | setPane pane =>
    simp only [Scheduler.dispatch]
    split
    · exact h
    · exact current_considerLatest now false h.idle
  | refresh => exact current_considerLatest now true h.idle
  | clearLog => exact ⟨h.idle, h.latest⟩
  | notice d => exact ⟨h.idle, h.latest⟩
  | shutdown => exact h

/-- What is accepted is what waited, so that the scheduler stays current. -/
theorem Current.expire (h : s.Current) (now : Nat) : (s.expire now).1.Current := by
  rcases expire_cases now s with ⟨_, hnot⟩ | ⟨p, hpending, _, hdue⟩
  · rw [hnot]
    exact h
  · obtain ⟨latest, hlatest, rfl⟩ := h.eq_of_pending hpending
    rw [hdue]
    constructor
    · exact fun _ => by rw [accept_debouncer]; rfl
    · intro document hdocument
      rw [accept_latest] at hdocument
      have heq : latest = document := Option.some.inj (hlatest.symm.trans hdocument)
      subst heq
      right
      rw [accept_debouncer, accept_accepted, accept_scene_pane]
      exact ⟨rfl, rfl⟩

/-- A result touches neither what waits nor the view. -/
theorem Current.complete (h : s.Current) (result : RenderResult) :
    (s.complete result).1.Current := by
  obtain ⟨inFlight, scene, hpane, hcomplete⟩ := complete_fst result s
  rw [hcomplete]
  constructor
  · exact h.idle
  · intro document hdocument
    simp only [hpane]
    exact h.latest document hdocument

/-- Every turn that does not stop the scheduler keeps it current. -/
theorem Current.turn (h : s.Current) (ht : t.ends = false) : (s.turn t).1.Current := by
  cases t with
  | answer result => exact h.complete result
  | event now event =>
    rw [turn_event ht]
    exact h.dispatch now event
  | hangUp => cases ht
  | timer now => exact h.expire now

/-- A running scheduler is current at every moment of every run. -/
theorem Run.current_after {r : Run} {turns : List Turn} (h : r.scheduler.Current)
    (hrunning : (r.after turns).running = true) : (r.after turns).scheduler.Current := by
  refine invariant_after (P := fun r => r.scheduler.Current) ?_ hrunning h
  intro r t hr ht hcurrent
  rw [take_of_running hr]
  exact hcurrent.turn ht

/-- A scheduler that is reached and still runs is current. -/
theorem Run.Reachable.current {r : Run} (h : r.Reachable) (hrunning : r.running = true) :
    r.scheduler.Current := by
  obtain ⟨scene, debounce, turns, rfl⟩ := h
  exact current_after (current_ofScene scene debounce) hrunning

/-- What holds at the start, and is kept by every turn of a current scheduler, holds at every
moment of every run that goes on. -/
theorem Run.Reachable.invariant {P : Run → Prop} {r : Run} (h : r.Reachable)
    (hrunning : r.running = true) (hstart : ∀ scene debounce, P (start scene debounce))
    (hstep : ∀ r t, r.running = true → t.ends = false → r.scheduler.Current → P r →
      P (r.take t)) : P r := by
  obtain ⟨scene, debounce, turns, rfl⟩ := h
  have hboth : ((start scene debounce).after turns).scheduler.Current ∧
      P ((start scene debounce).after turns) := by
    refine invariant_after (P := fun r => r.scheduler.Current ∧ P r) ?_ hrunning
      ⟨current_ofScene scene debounce, hstart scene debounce⟩
    rintro r t hr ht ⟨hcurrent, hp⟩
    refine ⟨?_, hstep r t hr ht hcurrent hp⟩
    rw [take_of_running hr]
    exact hcurrent.turn ht
  exact hboth.2

/-- The same where the renderer keeps its promise. -/
theorem Run.Faithful.invariant {P : Run → Prop} {r : Run} (h : r.Faithful)
    (hrunning : r.running = true) (hstart : ∀ scene debounce, P (start scene debounce))
    (hstep : ∀ r t, r.running = true → t.ends = false → r.scheduler.Current → r.Admits t → P r →
      P (r.take t)) : P r := by
  obtain ⟨scene, debounce, turns, hadmits, rfl⟩ := h
  have hboth : ((start scene debounce).after turns).scheduler.Current ∧
      P ((start scene debounce).after turns) := by
    refine invariant_after_of_admits (P := fun r => r.scheduler.Current ∧ P r) ?_ hrunning hadmits
      ⟨current_ofScene scene debounce, hstart scene debounce⟩
    rintro r t hr ht hturn ⟨hcurrent, hp⟩
    refine ⟨?_, hstep r t hr ht hcurrent hturn hp⟩
    rw [take_of_running hr]
    exact hcurrent.turn ht
  exact hboth.2

/-- The latest document and the view are the last ones that were told. -/
theorem told_turn (s : Scheduler) (t : Turn) :
    (s.turn t).1.latest = t.document?.or s.latest ∧
      (s.turn t).1.scene.pane = t.pane?.getD s.scene.pane := by
  cases t with
  | answer result =>
    obtain ⟨inFlight, scene, hpane, hcomplete⟩ := complete_fst result s
    simp only [Scheduler.turn, hcomplete]
    exact ⟨rfl, hpane⟩
  | event now event =>
    have htold : (s.dispatch now event).1.latest =
          (Turn.event now event).document?.or s.latest ∧
        (s.dispatch now event).1.scene.pane =
          (Turn.event now event).pane?.getD s.scene.pane := by
      cases event with
      | edit document =>
        obtain ⟨debouncer, hconsider⟩ :=
          considerLatest_fst now false { s with latest := some document }
        simp only [dispatch, hconsider]
        exact ⟨rfl, rfl⟩
      | setPane pane =>
        simp only [dispatch]
        split
        · next hsame => exact ⟨rfl, hsame.symm⟩
        · obtain ⟨debouncer, hconsider⟩ :=
            considerLatest_fst now false (s.revise fun scene => { scene with pane }).1
          simp only [hconsider]
          exact ⟨rfl, rfl⟩
      | refresh =>
        obtain ⟨debouncer, hconsider⟩ := considerLatest_fst now true s
        simp only [dispatch, hconsider]
        exact ⟨rfl, rfl⟩
      | clearLog => exact ⟨rfl, rfl⟩
      | notice d => exact ⟨rfl, rfl⟩
      | shutdown => exact ⟨rfl, rfl⟩
    simp only [Scheduler.turn]
    split
    · exact htold
    · exact htold
  | hangUp => exact ⟨rfl, rfl⟩
  | timer now =>
    simp only [Scheduler.turn]
    rcases expire_cases now s with ⟨_, hnot⟩ | ⟨p, _, _, hdue⟩
    · rw [hnot]
      exact ⟨rfl, rfl⟩
    · rw [hdue, accept_latest, accept_scene_pane]
      exact ⟨rfl, rfl⟩

theorem latest_turn (s : Scheduler) (t : Turn) :
    (s.turn t).1.latest = t.document?.or s.latest :=
  (told_turn s t).1

/-- A document that was told is never taken back. -/
theorem latest_turn_ne_none (h : s.latest ≠ none) (t : Turn) : (s.turn t).1.latest ≠ none := by
  rw [latest_turn]
  cases t.document? with
  | none => exact h
  | some document => exact Option.some_ne_none document

/-- Only the end of a wait hands anything over: the request that waited, if it is on show. -/
theorem request_of_turn {request : Request} (h : Effect.start request ∈ (s.turn t).2) :
    ∃ p, s.debouncer.pending = some p ∧ p.pane.showsPreview = true ∧
      request = ⟨s.generation + 1, p.document, p.pane⟩ ∧
      (s.turn t).1 = (accept p { s with debouncer := s.debouncer.clear }).1 := by
  have hmem : request ∈ (s.turn t).2.filterMap Effect.request? :=
    List.mem_filterMap.mpr ⟨_, h, rfl⟩
  rcases turn_accepts_or_keeps s t with ⟨now, p, _, hpending, _, haccept⟩ | ⟨_, _, hnothing, _⟩
  · rw [haccept, accept_requests] at hmem
    split at hmem
    · next hshows => exact ⟨p, hpending, hshows, List.mem_singleton.mp hmem, by rw [haccept]⟩
    · cases hmem
  · rw [hnothing] at hmem
    cases hmem

/-- **Currency.** At every moment of a run that goes on, the latest document either waits in
the view on show, as a whole and with its own fingerprint, or nothing waits and this very
fingerprint was the last to be accepted. Every request is for the latest document in the
view on show when it is handed over, before and after the turn, and never for a view
without a preview. -/
theorem Run.latest_waits_or_accepted {r : Run} (hr : r.Reachable) (hrunning : r.running = true) :
    (r.scheduler.latest = none → r.scheduler.debouncer.pending = none) ∧
    (∀ document, r.scheduler.latest = some document →
      r.scheduler.debouncer.pending = some ⟨document, r.scheduler.scene.pane,
          document.fingerprint r.scheduler.scene.pane⟩ ∨
        r.scheduler.debouncer.pending = none ∧
          r.scheduler.accepted = some (document.fingerprint r.scheduler.scene.pane)) ∧
    ∀ t request, Effect.start request ∈ (r.scheduler.turn t).2 →
      r.scheduler.latest = some request.document ∧ r.scheduler.scene.pane = request.pane ∧
        request.pane ≠ .editorOnly ∧
        (r.scheduler.turn t).1.latest = r.scheduler.latest ∧
        (r.scheduler.turn t).1.scene.pane = r.scheduler.scene.pane := by
  have hcurrent := hr.current hrunning
  refine ⟨hcurrent.idle, hcurrent.latest, ?_⟩
  intro t request hstart
  obtain ⟨p, hpending, hshows, hrequest, hturn⟩ := request_of_turn hstart
  obtain ⟨document, hlatest, rfl⟩ := hcurrent.eq_of_pending hpending
  rw [hturn, hrequest, accept_latest, accept_scene_pane]
  have hview : r.scheduler.scene.pane ≠ .editorOnly := by
    intro heq
    simp only [Pending.of, heq] at hshows
    cases hshows
  exact ⟨hlatest, rfl, hview, rfl, rfl⟩

/-- A song that was accepted out of sight, and for which a view was opened since. -/
private def shownLater : Run :=
  (Run.start (.new (.unsaved "Untitled-1") .editorOnly) 300).after
    [.event 0 (.edit ⟨"[C]I heard", {}, .unsaved "Untitled-1"⟩), .timer 300,
      .event 400 (.setPane .previewOnly)]

/-- A song that is shown while nothing waits is handed over in the new view. -/
theorem Run.handed_in_new_view :
    shownLater.Reachable ∧ shownLater.running = true ∧
      Effect.start ⟨2, ⟨"[C]I heard", {}, .unsaved "Untitled-1"⟩, .previewOnly⟩ ∈
        (shownLater.scheduler.turn (.timer 700)).2 ∧
      shownLater.scheduler.latest = some ⟨"[C]I heard", {}, .unsaved "Untitled-1"⟩ ∧
      shownLater.scheduler.scene.pane = .previewOnly := by
  have hreachable : shownLater.Reachable := ⟨_, _, _, rfl⟩
  have hrunning : shownLater.running = true := by decide +kernel
  have hstart : Effect.start ⟨2, ⟨"[C]I heard", {}, .unsaved "Untitled-1"⟩, .previewOnly⟩ ∈
      (shownLater.scheduler.turn (.timer 700)).2 := by decide +kernel
  obtain ⟨_, _, hrequests⟩ := latest_waits_or_accepted hreachable hrunning
  obtain ⟨hlatest, hpane, _⟩ := hrequests _ _ hstart
  exact ⟨hreachable, hrunning, hstart, hlatest, hpane⟩

end SongPreview.Scheduler
