import SongPreview.Proofs.Scheduler.Standing
import Mathlib.Data.List.Nodup

/-!
# At most one rendering goes on

A rendering is live from the moment it is started until its answer comes or it is
cancelled. Every live rendering is the one that the scheduler knows to go on: what is
accepted cancels the rendering before it first, an answer frees the place of its own
rendering, and the end cancels what is left. With a renderer that keeps its promise the
converse holds too, and the scene shows that a rendering goes on exactly while one is live.
-/

namespace SongPreview.Scheduler

variable {s : Scheduler} {t : Turn}

/-- What is asked for on acceptance comes in this order: the rendering before is cancelled, the
scene is published, and the request is handed over last. -/
theorem accept_effects_of_shows {p : Pending} (h : p.pane.showsPreview = true) (s : Scheduler) :
    (accept p s).2 =
      (match s.inFlight with
        | some old => [.cancel old, .remark (.superseded old)]
        | none => []) ++ [.publish (s.scene.begin (s.generation + 1) p.document.source)] ++
      [.start ⟨s.generation + 1, p.document, p.pane⟩, .remark (.started (s.generation + 1))] := by
  unfold accept
  cases s.inFlight <;> simp only [h, if_true, revise]

/-- A rendering that goes on is cancelled before the next one is started. -/
theorem cancelled_before_start {request : Request} (h : Effect.start request ∈ (s.turn t).2) :
    ∃ before later, (s.turn t).2 = before ++ .start request :: later ∧
      ∀ old, s.inFlight = some old → .cancel old ∈ before := by
  rcases turn_accepts_or_keeps s t with ⟨now, p, rfl, _, _, haccept⟩ | ⟨_, _, hnothing, _⟩
  · have hmem : request ∈ (s.turn (.timer now)).2.filterMap Effect.request? :=
      List.mem_filterMap.mpr ⟨_, h, rfl⟩
    rw [haccept, accept_requests] at hmem
    split at hmem
    · next hshows =>
      obtain rfl := List.mem_singleton.mp hmem
      rw [haccept, accept_effects_of_shows hshows]
      refine ⟨_, _, rfl, ?_⟩
      intro old hold
      simp only [hold, List.mem_append, List.mem_cons, true_or]
    · cases hmem
  · have hmem : request ∈ (s.turn t).2.filterMap Effect.request? :=
      List.mem_filterMap.mpr ⟨_, h, rfl⟩
    rw [hnothing] at hmem
    cases hmem

/-- At the end the rendering that goes on is cancelled, and nothing is published. -/
theorem turn_of_ends (ht : t.ends = true) (s : Scheduler) :
    (s.turn t).1.inFlight = none ∧ (s.turn t).2.filterMap Effect.cancelled? = s.inFlight.toList ∧
      (s.turn t).2.filterMap Effect.scene? = [] ∧ (s.turn t).2.filterMap Effect.request? = [] := by
  have hcancels : s.stop.2.filterMap Effect.cancelled? = s.inFlight.toList := by
    unfold stop
    cases s.inFlight <;> rfl
  have hscenes := stop_asks_nothing (β := Scene) Effect.scene? (fun _ => rfl) s
  have hrequests := stop_asks_nothing (β := Request) Effect.request? (fun _ => rfl) s
  cases t with
  | answer result => cases ht
  | event now event =>
    cases event with
    | shutdown => exact ⟨rfl, hcancels, hscenes, hrequests⟩
    | _ => cases ht
  | hangUp => exact ⟨rfl, hcancels, hscenes, hrequests⟩
  | timer now => cases ht

namespace Run

variable {r q : Run} {request other : Request} {turns : List Turn}

/-- What every turn of a running scheduler keeps, the last one included, holds of every run. -/
theorem holds_after {P : Run → Prop} (hstep : ∀ r t, r.running = true → P r → P (r.take t))
    (h : P r) (turns : List Turn) : P (r.after turns) := by
  induction turns generalizing r with
  | nil => exact h
  | cons t turns ih =>
    refine ih ?_
    cases hrunning : r.running with
    | false => rwa [take_of_stopped hrunning]
    | true => exact hstep r t hrunning h

/-! ### Live renderings -/

/-- A rendering was started, its answer did not come, and it was not cancelled. -/
structure Live (r : Run) (request : Request) : Prop where
  handed : request ∈ r.handed
  unanswered : request.generation ∉ r.answers.map RenderResult.generation
  uncancelled : request.generation ∉ r.cancelled

/-- Every live rendering is the one that the scheduler knows to go on. -/
def KnowsLive (r : Run) : Prop :=
  ∀ request, r.Live request → r.scheduler.inFlight = some request.generation

/-- A rendering that is live after a turn was live before it or is started by it. -/
theorem Live.of_take (h : (r.take t).Live request) (hrunning : r.running = true) :
    r.Live request ∨ request ∈ (r.scheduler.turn t).2.filterMap Effect.request? := by
  obtain ⟨hhanded, hunanswered, huncancelled⟩ := h
  rw [handed_take hrunning, List.mem_append] at hhanded
  rw [answers_take hrunning, List.map_append, List.mem_append, not_or] at hunanswered
  rw [cancelled_take hrunning, List.mem_append, not_or] at huncancelled
  rcases hhanded with hbefore | hnew
  · exact Or.inl ⟨hbefore, hunanswered.1, huncancelled.1⟩
  · exact Or.inr hnew

/-- A live rendering stays known through a turn that starts nothing and leaves the place of
the rendering that goes on, unless it is answered. -/
theorem KnowsLive.take_of_keeps (h : r.KnowsLive) (hrunning : r.running = true)
    (hnothing : (r.scheduler.turn t).2.filterMap Effect.request? = [])
    (hkeeps : ∀ request, (r.take t).Live request →
      r.scheduler.inFlight = some request.generation →
      (r.scheduler.turn t).1.inFlight = some request.generation) :
    (r.take t).KnowsLive := by
  intro request hlive
  rcases hlive.of_take hrunning with hbefore | hnew
  · have hflight := hkeeps request hlive (h request hbefore)
    rwa [take_of_running hrunning]
  · rw [hnothing] at hnew
    cases hnew

/-- An answer frees the place of its own rendering only. -/
theorem KnowsLive.take_answer (h : r.KnowsLive) (hrunning : r.running = true)
    (result : RenderResult) : (r.take (.answer result)).KnowsLive := by
  refine h.take_of_keeps hrunning ?_ ?_
  · exact complete_asks_nothing Effect.request? (fun _ => rfl) (fun _ => rfl) result r.scheduler
  · intro request hlive hflight
    have hne : request.generation ≠ result.generation := by
      intro heq
      refine hlive.unanswered ?_
      rw [answers_take hrunning, heq]
      exact List.mem_map_of_mem (List.mem_append_right _ (List.mem_singleton_self result))
    by_cases heq : result.generation = r.scheduler.generation
    · have hnot : ¬ r.scheduler.inFlight = some result.generation := by
        rw [hflight]
        exact fun hsame => hne (Option.some.inj hsame)
      simp only [turn, complete_of_eq heq, if_neg hnot]
      exact hflight
    · simp only [turn, complete_of_ne heq]
      exact hflight

/-- What is told leaves the rendering that goes on, and the end cancels it. -/
theorem KnowsLive.take_of_ends (h : r.KnowsLive) (hrunning : r.running = true)
    (ht : t.ends = true) : ∀ request, ¬ (r.take t).Live request := by
  intro request hlive
  obtain ⟨_, hcancels, _, hnothing⟩ := turn_of_ends ht r.scheduler
  rcases hlive.of_take hrunning with hbefore | hnew
  · refine hlive.uncancelled ?_
    rw [cancelled_take hrunning, hcancels, h request hbefore]
    exact List.mem_append_right _ (List.mem_singleton_self _)
  · rw [hnothing] at hnew
    cases hnew

/-- What is accepted cancels the live rendering before it and takes its place. -/
theorem KnowsLive.take_timer (h : r.KnowsLive) (hrunning : r.running = true) (now : Nat) :
    (r.take (.timer now)).KnowsLive := by
  rcases expire_cases now r.scheduler with ⟨_, hnot⟩ | ⟨p, _, _, hdue⟩
  · have hturn : r.scheduler.turn (.timer now) = (r.scheduler, []) := hnot
    refine h.take_of_keeps hrunning ?_ ?_
    · rw [hturn, List.filterMap_nil]
    · intro request _ hflight
      rwa [hturn]
  · have haccepts : r.Accepts p (r.take (.timer now)) := accepts_take hrunning hdue
    intro request hlive
    rcases hlive.of_take hrunning with hbefore | hnew
    · exfalso
      refine hlive.uncancelled ?_
      rw [haccepts.cancelled, h request hbefore]
      exact List.mem_append_right _ (List.mem_singleton_self _)
    · have hturn : r.scheduler.turn (.timer now) =
          accept p { r.scheduler with debouncer := r.scheduler.debouncer.clear } := hdue
      rw [hturn, accept_requests] at hnew
      split at hnew
      · next hshows =>
        obtain rfl := List.mem_singleton.mp hnew
        rw [haccepts.scheduler, accept_of_shows hshows]
      · cases hnew

theorem KnowsLive.take (h : r.KnowsLive) (hrunning : r.running = true) (t : Turn) :
    (r.take t).KnowsLive := by
  by_cases ht : t.ends = true
  · exact fun request hlive => absurd hlive (h.take_of_ends hrunning ht request)
  · rw [Bool.not_eq_true] at ht
    cases t with
    | answer result => exact h.take_answer hrunning result
    | event now event =>
      refine h.take_of_keeps hrunning ?_ ?_
      · rw [turn_event ht]
        exact dispatch_asks_nothing Effect.request? rfl rfl (fun _ => rfl) now event r.scheduler
      · intro request _ hflight
        rw [turn_event ht]
        exact (sameRenderings_dispatch now event r.scheduler).inFlight.trans hflight
    | hangUp => cases ht
    | timer now => exact h.take_timer hrunning now

theorem knowsLive_after (scene : Scene) (debounce : Nat) (turns : List Turn) :
    ((start scene debounce).after turns).KnowsLive := by
  refine holds_after (P := KnowsLive) (fun _ t hr h => h.take hr t) ?_ turns
  exact fun request hlive => nomatch hlive.handed

/-- With a renderer that keeps its promise, the rendering that the scheduler knows to go on is
live, and is that of the last generation. -/
theorem Orderly.live_of_inFlight {generation : Nat} (h : r.Orderly)
    (hflight : r.scheduler.inFlight = some generation) :
    generation = r.scheduler.generation ∧
      ∃ request, r.Live request ∧ request.generation = generation := by
  have hgeneration := h.stands.inFlight_eq hflight
  refine ⟨hgeneration, ?_⟩
  cases h.stands with
  | untouched _ hnone _ =>
    rw [hnone] at hflight
    cases hflight
  | parked _ _ _ _ hnone _ _ =>
    rw [hnone] at hflight
    cases hflight
  | rendering request hrequested _ _ hanswers hcancelled =>
    obtain ⟨hhanded, heq⟩ := (hrequested.unique request).mpr rfl
    refine ⟨request, ⟨hhanded, ?_, ?_⟩, heq.trans hgeneration.symm⟩
    · intro hmem
      obtain ⟨result, hresult, hsame⟩ := List.mem_map.mp hmem
      exact hanswers result hresult (hsame.trans heq)
    · rwa [heq]
  | answered _ _ _ hnone _ _ =>
    rw [hnone] at hflight
    cases hflight

/-! ### Generations -/

/-- The generations that were given out follow each other, beginning after that of the first
scene, and the last is the scheduler's. -/
structure Consecutive (first : Nat) (r : Run) : Prop where
  givenOut : r.givenOut = List.range' (first + 1) r.givenOut.length
  generation : r.scheduler.generation = first + r.givenOut.length

theorem Consecutive.take {first : Nat} (h : r.Consecutive first) (hrunning : r.running = true)
    (t : Turn) : (r.take t).Consecutive first := by
  obtain ⟨hgiven, hgeneration⟩ := h
  rcases turn_accepts_or_keeps r.scheduler t with
    ⟨now, p, _, _, _, haccept⟩ | ⟨hkeeps, _, _, hnothing⟩
  · have hnew : (r.take t).givenOut = r.givenOut ++ [r.scheduler.generation + 1] := by
      rw [givenOut_take hrunning, haccept, accept_givenOut]
    constructor
    · rw [hnew, List.length_append, List.length_singleton, List.range'_1_concat, ← hgiven,
        hgeneration]
      congr 2
      omega
    · rw [hnew, take_of_running hrunning, haccept, accept_generation, List.length_append,
        List.length_singleton]
      simp only [hgeneration]
      omega
  · have hsame : (r.take t).givenOut = r.givenOut := by
      rw [givenOut_take hrunning, hnothing, List.append_nil]
    constructor
    · rw [hsame]
      exact hgiven
    · rw [hsame, take_of_running hrunning]
      exact hkeeps.trans hgeneration

theorem consecutive_after (scene : Scene) (debounce : Nat) (turns : List Turn) :
    ((start scene debounce).after turns).Consecutive scene.generation :=
  holds_after (fun _ t hr h => Consecutive.take h hr t) ⟨rfl, rfl⟩ turns

/-- Every generation that is handed over was given out, in the same order. -/
theorem handed_sublist_givenOut (r : Run) :
    (r.handed.map Request.generation).Sublist r.givenOut := by
  unfold handed givenOut
  induction r.effects with
  | nil => exact List.Sublist.refl _
  | cons effect effects ih =>
    cases effect with
    | publish scene => exact ih
    | cancel generation => exact ih
    | start request => exact ih.cons_cons request.generation
    | remark remark =>
      cases remark with
      | needsNoPreview generation => exact ih.cons generation
      | _ => exact ih

/-- No generation is handed over twice. -/
theorem Consecutive.nodup_handed {first : Nat} (h : r.Consecutive first) :
    (r.handed.map Request.generation).Nodup := by
  refine (handed_sublist_givenOut r).nodup ?_
  rw [h.givenOut]
  exact List.nodup_range'

/-- Live renderings of one generation are one rendering. -/
theorem Live.eq_of_generation_eq {first : Nat} (h : r.Consecutive first) (hlive : r.Live request)
    (hlive' : r.Live other) (heq : request.generation = other.generation) : request = other :=
  List.inj_on_of_nodup_map h.nodup_handed hlive.handed hlive'.handed heq

/-! ### The scene -/

/-- As long as nothing was accepted, no scene shows that a rendering goes on. -/
def QuietStart (r : Run) : Prop :=
  r.scheduler.accepted = none → r.scheduler.scene.status ≠ .rendering

theorem QuietStart.take (h : r.QuietStart) (hrunning : r.running = true) (t : Turn) :
    (r.take t).QuietStart := by
  unfold QuietStart
  rw [take_of_running hrunning]
  cases t with
  | answer result =>
    by_cases heq : result.generation = r.scheduler.generation
    · simp only [turn, complete_of_eq heq]
      intro haccepted
      cases hscene : r.scheduler.scene.reconcile? result with
      | none => exact h haccepted
      | some scene =>
        rcases (Scene.settled_of_reconcile? hscene).2 with ⟨hstatus, _⟩ | hstatus
        · simp only [Option.getD_some, hstatus, ne_eq, reduceCtorEq, not_false_eq_true]
        · simp only [Option.getD_some, hstatus, ne_eq, reduceCtorEq, not_false_eq_true]
    · simp only [turn, complete_of_ne heq]
      exact h
  | event now event =>
    have hsame := sameRenderings_dispatch now event r.scheduler
    have hscene : (r.scheduler.turn (.event now event)).1.scene =
        (r.scheduler.dispatch now event).1.scene := by
      simp only [turn]
      split <;> rfl
    have haccepted : (r.scheduler.turn (.event now event)).1.accepted =
        (r.scheduler.dispatch now event).1.accepted := by
      simp only [turn]
      split <;> rfl
    rw [hscene, haccepted, hsame.status, hsame.accepted]
    exact h
  | hangUp => exact h
  | timer now =>
    rcases expire_cases now r.scheduler with ⟨_, hnot⟩ | ⟨p, _, _, hdue⟩
    · simp only [turn, hnot]
      exact h
    · simp only [turn, hdue, accept_accepted, reduceCtorEq, false_implies]

theorem quietStart_after {scene : Scene} (hscene : scene.status ≠ .rendering) (debounce : Nat)
    (turns : List Turn) : ((start scene debounce).after turns).QuietStart :=
  holds_after (fun _ t hr h => QuietStart.take h hr t) (fun _ => hscene) turns

/-- The scene shows that a rendering goes on exactly while the scheduler knows of one. -/
theorem Orderly.status_eq_rendering_iff (h : r.Orderly) (hquiet : r.QuietStart) :
    r.scheduler.scene.status = .rendering ↔
      r.scheduler.inFlight = some r.scheduler.generation := by
  cases h.stands with
  | untouched haccepted hflight _ =>
    rw [hflight]
    exact iff_of_false (hquiet haccepted) nofun
  | parked _ _ _ _ hflight hstatus _ =>
    rw [hflight, hstatus]
    exact iff_of_false nofun nofun
  | rendering _ _ hflight hstatus _ _ =>
    rw [hflight, hstatus]
    exact iff_of_true rfl rfl
  | answered _ result _ hflight _ hshows =>
    rw [hflight]
    refine iff_of_false ?_ nofun
    cases houtcome : result.outcome with
    | success artifact =>
      rw [houtcome] at hshows
      rw [hshows.1]
      exact nofun
    | failed code =>
      rw [houtcome] at hshows
      rw [hshows.1]
      exact nofun
    | cancelled =>
      rw [houtcome] at hshows
      exact hshows.elim

/-! ### The whole law -/

/-- A scheduler that has stopped asks for nothing more, whatever turns are offered to it. -/
theorem after_of_stopped (h : r.running = false) (turns : List Turn) : r.after turns = r := by
  induction turns with
  | nil => rfl
  | cons t turns ih => rw [after_cons, take_of_stopped h, ih]

/-- The turn at which a scheduler stops cancels what is left and publishes nothing, and nothing
happens after it. -/
theorem KnowsLive.after_end (h : r.KnowsLive) (hrunning : r.running = true) (ht : t.ends = true)
    (later : List Turn) :
    (∀ request, ¬ ((r.take t).after later).Live request) ∧
      ((r.take t).after later).published = r.published ∧
      ((r.take t).after later).handed = r.handed := by
  have hstopped : (r.take t).running = false := by
    rw [take_of_running hrunning, ht]
    rfl
  obtain ⟨_, _, hscenes, hrequests⟩ := turn_of_ends ht r.scheduler
  rw [after_of_stopped hstopped]
  refine ⟨h.take_of_ends hrunning ht, ?_, ?_⟩
  · rw [published_take hrunning, hscenes, List.append_nil]
  · rw [handed_take hrunning, hrequests, List.append_nil]

/-- **At most one rendering goes on.** The renderer keeps its promise in a run that began with a
scene in which nothing is rendered. As long as the scheduler runs, its generation is that of
its scene, the generations that were given out to requests and to documents without a preview
follow each other without a gap, and none is handed over twice. Of all renderings that were
ever started only the one that the scheduler knows to go on is live, and it has the last
generation; it is there exactly while the scene shows a rendering. Whatever turn starts a
rendering, cancels the one before it first. Any turn that stops the scheduler leaves no
rendering live, and nothing is published or started from then on. -/
theorem one_rendering (scene : Scene) (debounce : Nat) (turns : List Turn)
    (hscene : scene.status ≠ .rendering) (hadmits : (start scene debounce).AdmitsAll turns)
    (hrunning : ((start scene debounce).after turns).running = true) :
    let r := (start scene debounce).after turns
    r.scheduler.generation = r.scheduler.scene.generation ∧
    r.scheduler.generation = scene.generation + r.givenOut.length ∧
    r.givenOut = List.range' (scene.generation + 1) r.givenOut.length ∧
    (r.handed.map Request.generation).Nodup ∧
    (∀ request, r.Live request ↔
      request ∈ r.handed ∧ r.scheduler.inFlight = some request.generation) ∧
    (∀ request other, r.Live request → r.Live other → request = other) ∧
    (∀ request, r.Live request → request.generation = r.scheduler.generation) ∧
    (r.scheduler.scene.status = .rendering ↔ ∃ request, r.Live request) ∧
    (r.scheduler.scene.status = .rendering ↔ r.scheduler.inFlight ≠ none) ∧
    (∀ t request, Effect.start request ∈ (r.scheduler.turn t).2 →
      ∃ before later, (r.scheduler.turn t).2 = before ++ .start request :: later ∧
        ∀ old, r.scheduler.inFlight = some old → .cancel old ∈ before) ∧
    ∀ t later, t.ends = true →
      (∀ request, ¬ ((r.take t).after later).Live request) ∧
        ((r.take t).after later).published = r.published ∧
        ((r.take t).after later).handed = r.handed := by
  intro r
  have hfaithful : r.Faithful := ⟨scene, debounce, turns, hadmits, rfl⟩
  have horderly := hfaithful.orderly hrunning
  have hknows : r.KnowsLive := knowsLive_after scene debounce turns
  have hconsecutive : r.Consecutive scene.generation := consecutive_after scene debounce turns
  have hstatus := horderly.status_eq_rendering_iff (quietStart_after hscene debounce turns)
  have hlast : ∀ request, r.Live request → request.generation = r.scheduler.generation :=
    fun request hlive => (horderly.live_of_inFlight (hknows request hlive)).1
  have hone : ∀ request other, r.Live request → r.Live other → request = other := by
    intro request other hlive hlive'
    exact hlive.eq_of_generation_eq hconsecutive hlive'
      ((hlast request hlive).trans (hlast other hlive').symm)
  refine ⟨horderly.sceneGeneration.symm, hconsecutive.generation, hconsecutive.givenOut,
    hconsecutive.nodup_handed, ?_, hone, hlast, ?_, ?_, fun t request => cancelled_before_start, ?_⟩
  · intro request
    constructor
    · exact fun hlive => ⟨hlive.handed, hknows request hlive⟩
    · rintro ⟨hhanded, hflight⟩
      obtain ⟨_, live, hlive, heq⟩ := horderly.live_of_inFlight hflight
      have hsame : live = request :=
        List.inj_on_of_nodup_map hconsecutive.nodup_handed hlive.handed hhanded heq
      rwa [← hsame]
  · rw [hstatus]
    constructor
    · intro hflight
      obtain ⟨_, live, hlive, _⟩ := horderly.live_of_inFlight hflight
      exact ⟨live, hlive⟩
    · rintro ⟨live, hlive⟩
      rw [← hlast live hlive]
      exact hknows live hlive
  · rw [hstatus]
    constructor
    · intro hflight
      rw [hflight]
      exact Option.some_ne_none _
    · intro hflight
      obtain ⟨generation, hgeneration⟩ := Option.ne_none_iff_exists'.mp hflight
      rw [hgeneration, (horderly.live_of_inFlight hgeneration).1]
  · exact fun t later ht => hknows.after_end hrunning ht later

/-- A new scene with a preview. -/
private def withPreview : Scene :=
  .new (.unsaved "Untitled-1") .editorAndPreview

/-- A song is rendered, shown without a preview, shown again, and rendered once more while its
first rendering winds down. -/
private def hiddenAndShown : List Turn :=
  [.event 0 (.edit ⟨"[C]I heard", {}, .unsaved "Untitled-1"⟩), .timer 300,
    .event 400 (.setPane .editorOnly), .timer 700, .event 800 (.setPane .editorAndPreview),
    .timer 1100, .answer ⟨1, .cancelled, []⟩, .event 1200 .refresh, .timer 1500]

/-- Of three renderings that were started the last is the only live one, and the end cancels
it. -/
theorem last_of_three_live :
    withPreview.status ≠ .rendering ∧ (start withPreview 300).AdmitsAll hiddenAndShown ∧
      ∃ r, r = (start withPreview 300).after hiddenAndShown ∧ r.running = true ∧
        r.handed.map Request.generation = [1, 3, 4] ∧ r.givenOut = [1, 2, 3, 4] ∧
        r.scheduler.scene.status = .rendering ∧
        (∃ request, r.Live request ∧ request.generation = 4) ∧
        ∀ request, ¬ ((r.take .hangUp).after []).Live request := by
  have hscene : withPreview.status ≠ .rendering := by decide
  have hadmits : (start withPreview 300).AdmitsAll hiddenAndShown := by decide +kernel
  have hrunning : ((start withPreview 300).after hiddenAndShown).running = true := by
    decide +kernel
  obtain ⟨hhanded, hgiven, hstatus, hgeneration⟩ :
      ((start withPreview 300).after hiddenAndShown).handed.map Request.generation = [1, 3, 4] ∧
        ((start withPreview 300).after hiddenAndShown).givenOut = [1, 2, 3, 4] ∧
        ((start withPreview 300).after hiddenAndShown).scheduler.scene.status = .rendering ∧
        ((start withPreview 300).after hiddenAndShown).scheduler.generation = 4 := by
    decide +kernel
  obtain ⟨_, _, _, _, _, _, hlast, hlive, _, _, hend⟩ :=
    one_rendering withPreview 300 hiddenAndShown hscene hadmits hrunning
  obtain ⟨request, hrequest⟩ := hlive.mp hstatus
  exact ⟨hscene, hadmits, _, rfl, hrunning, hhanded, hgiven, hstatus,
    ⟨request, hrequest, (hlast request hrequest).trans hgeneration⟩, (hend .hangUp [] rfl).1⟩

end Run

end SongPreview.Scheduler
