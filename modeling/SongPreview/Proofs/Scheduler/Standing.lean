import SongPreview.Proofs.Scheduler.Current

/-!
# How the last generation stands

With a renderer that keeps its promise, the last generation that was given out is in one
of three ways: its document was accepted out of sight, its rendering goes on, or its
answer was taken over into the scene. This file follows a run from each to the next.
Answers of earlier generations, and everything that is told, leave it where it is.
-/

namespace SongPreview

/-- The scene shows an outcome: a page, or a failure without one. -/
def Scene.Shows (scene : Scene) : Outcome → Prop
  | .success artifact => scene.status = .succeeded ∧ scene.artifact = some artifact
  | .failed _ => scene.status = .failed ∧ scene.artifact = none
  | .cancelled => False

/-- A result of the scene's generation is taken over, unless it was cancelled. -/
theorem Scene.shows_of_reconcile? {result : RenderResult} {scene : Scene}
    (hgeneration : result.generation = scene.generation) (hnot : result.outcome ≠ .cancelled) :
    ∃ scene', scene.reconcile? result = some scene' ∧ scene'.Shows result.outcome ∧
      scene'.generation = scene.generation := by
  unfold reconcile?
  rw [if_neg (not_not_intro hgeneration)]
  cases houtcome : result.outcome with
  | success artifact => exact ⟨_, rfl, ⟨rfl, rfl⟩, rfl⟩
  | failed code => exact ⟨_, rfl, ⟨rfl, rfl⟩, rfl⟩
  | cancelled => exact absurd houtcome hnot

namespace Scheduler.Run

variable {r q : Run} {t : Turn} {now : Nat}

/-- A request is the one for the last generation, and for what was last accepted. -/
structure Requested (r : Run) (request : Request) : Prop where
  accepted : r.scheduler.accepted = some (request.document.fingerprint request.pane)
  shows : request.pane.showsPreview = true
  unique : r.RequestOf r.scheduler.generation request

/-- How the last generation stands. -/
inductive Stands (r : Run) : Prop
  /-- Nothing was accepted yet. -/
  | untouched (haccepted : r.scheduler.accepted = none) (hflight : r.scheduler.inFlight = none)
      (hhanded : r.handed = [])
  /-- Its document was accepted in a view that does not show it. -/
  | parked (document : Document) (pane : Pane)
      (haccepted : r.scheduler.accepted = some (document.fingerprint pane))
      (hhidden : pane.showsPreview = false) (hflight : r.scheduler.inFlight = none)
      (hstatus : r.scheduler.scene.status = .idle)
      (hhanded : ∀ request ∈ r.handed, request.generation ≠ r.scheduler.generation)
  /-- Its rendering goes on: it is neither answered nor cancelled. -/
  | rendering (request : Request) (hrequested : r.Requested request)
      (hflight : r.scheduler.inFlight = some r.scheduler.generation)
      (hstatus : r.scheduler.scene.status = .rendering)
      (hanswers : ∀ result ∈ r.answers, result.generation ≠ r.scheduler.generation)
      (hcancelled : r.scheduler.generation ∉ r.cancelled)
  /-- It was answered once, and the scene shows the answer. -/
  | answered (request : Request) (result : RenderResult) (hrequested : r.Requested request)
      (hflight : r.scheduler.inFlight = none)
      (hanswer : r.AnswerOf r.scheduler.generation result)
      (hshows : r.scheduler.scene.Shows result.outcome)

/-- The generations of a run are in order. -/
structure Orderly (r : Run) : Prop where
  sceneGeneration : r.scheduler.scene.generation = r.scheduler.generation
  givenOut : r.scheduler.accepted ≠ none → r.givenOut.getLast? = some r.scheduler.generation
  handed : ∀ request ∈ r.handed, request.generation ≤ r.scheduler.generation
  answers : ∀ result ∈ r.answers, result.generation ≤ r.scheduler.generation
  cancelled : ∀ generation ∈ r.cancelled, generation ≤ r.scheduler.generation
  stands : r.Stands

theorem orderly_start (scene : Scene) (debounce : Nat) : (start scene debounce).Orderly where
  sceneGeneration := rfl
  givenOut h := absurd rfl h
  handed := nofun
  answers := nofun
  cancelled := nofun
  stands := .untouched rfl rfl rfl

/-- Between two moments nothing was given out, handed over or cancelled, and no answer of
the last generation came. -/
structure Quiet (r q : Run) : Prop extends SameRenderings r.scheduler q.scheduler where
  givenOut : q.givenOut = r.givenOut
  handed : q.handed = r.handed
  cancelled : q.cancelled = r.cancelled
  answers : ∀ result ∈ q.answers, result.generation ≤ r.scheduler.generation ∧
    (result.generation = r.scheduler.generation → result ∈ r.answers)
  answers_sub : ∀ result ∈ r.answers, result ∈ q.answers

theorem Requested.of_quiet {request : Request} (h : r.Requested request) (hquiet : r.Quiet q) :
    q.Requested request where
  accepted := hquiet.accepted.trans h.accepted
  shows := h.shows
  unique other := by
    rw [hquiet.handed, hquiet.generation]
    exact h.unique other

/-- Nothing changes for the last generation while it is quiet. -/
theorem Stands.of_quiet (h : r.Stands) (hquiet : r.Quiet q) : q.Stands := by
  have hgeneration := hquiet.generation
  cases h with
  | untouched haccepted hflight hhanded =>
    exact .untouched (hquiet.accepted.trans haccepted) (hquiet.inFlight.trans hflight)
      (hquiet.handed.trans hhanded)
  | parked document pane haccepted hhidden hflight hstatus hhanded =>
    refine .parked document pane (hquiet.accepted.trans haccepted) hhidden
      (hquiet.inFlight.trans hflight) (hquiet.status.trans hstatus) ?_
    rw [hquiet.handed, hgeneration]
    exact hhanded
  | rendering request hrequested hflight hstatus hanswers hcancelled =>
    refine .rendering request (hrequested.of_quiet hquiet) ?_ (hquiet.status.trans hstatus) ?_ ?_
    · rw [hquiet.inFlight, hgeneration]
      exact hflight
    · intro result hresult heq
      rw [hgeneration] at heq
      exact hanswers result ((hquiet.answers result hresult).2 heq) heq
    · rw [hquiet.cancelled, hgeneration]
      exact hcancelled
  | answered request result hrequested hflight hanswer hshows =>
    refine .answered request result (hrequested.of_quiet hquiet) (hquiet.inFlight.trans hflight)
      ?_ ?_
    · intro other
      rw [hgeneration, ← hanswer other]
      constructor
      · exact fun ⟨hother, heq⟩ => ⟨(hquiet.answers other hother).2 heq, heq⟩
      · exact fun ⟨hother, heq⟩ => ⟨hquiet.answers_sub other hother, heq⟩
    · cases houtcome : result.outcome with
      | success artifact =>
        rw [houtcome] at hshows
        exact ⟨hquiet.status.trans hshows.1, hquiet.artifact.trans hshows.2⟩
      | failed code =>
        rw [houtcome] at hshows
        exact ⟨hquiet.status.trans hshows.1, hquiet.artifact.trans hshows.2⟩
      | cancelled =>
        rw [houtcome] at hshows
        exact hshows.elim

theorem Orderly.of_quiet (h : r.Orderly) (hquiet : r.Quiet q) : q.Orderly where
  sceneGeneration := by
    rw [hquiet.sceneGeneration, hquiet.generation]
    exact h.sceneGeneration
  givenOut := by
    rw [hquiet.accepted, hquiet.generation, hquiet.givenOut]
    exact h.givenOut
  handed := by
    rw [hquiet.handed, hquiet.generation]
    exact h.handed
  answers result hresult := by
    rw [hquiet.generation]
    exact (hquiet.answers result hresult).1
  cancelled := by
    rw [hquiet.cancelled, hquiet.generation]
    exact h.cancelled
  stands := h.stands.of_quiet hquiet

/-- A turn is quiet if it changes no rendering, asks for nothing, and brings at most an answer
of an earlier generation. -/
theorem quiet_take (hrunning : r.running = true) (h : r.Orderly)
    (hsame : SameRenderings r.scheduler (r.scheduler.turn t).1)
    (hgiven : (r.scheduler.turn t).2.filterMap Effect.givenOut? = [])
    (hhanded : (r.scheduler.turn t).2.filterMap Effect.request? = [])
    (hcancelled : (r.scheduler.turn t).2.filterMap Effect.cancelled? = [])
    (hanswer : ∀ result ∈ t.answer?, result.generation < r.scheduler.generation) :
    r.Quiet (r.take t) := by
  constructor
  · rw [take_of_running hrunning]
    exact hsame
  · rw [givenOut_take hrunning, hgiven, List.append_nil]
  · rw [handed_take hrunning, hhanded, List.append_nil]
  · rw [cancelled_take hrunning, hcancelled, List.append_nil]
  · intro result hresult
    rw [answers_take hrunning, List.mem_append, Option.mem_toList] at hresult
    rcases hresult with hbefore | hnew
    · exact ⟨h.answers result hbefore, fun _ => hbefore⟩
    · have hlt := hanswer result hnew
      exact ⟨Nat.le_of_lt hlt, fun heq => absurd heq (Nat.ne_of_lt hlt)⟩
  · intro result hresult
    rw [answers_take hrunning]
    exact List.mem_append_left _ hresult

/-- Whatever is told, the generations stay in order. -/
theorem Orderly.take_event {event : Event} (h : r.Orderly) (hrunning : r.running = true)
    (ht : (Turn.event now event).ends = false) : (r.take (.event now event)).Orderly := by
  refine h.of_quiet (quiet_take hrunning h ?_ ?_ ?_ ?_ nofun)
  · rw [turn_event ht]
    exact sameRenderings_dispatch now event r.scheduler
  · rw [turn_event ht]
    exact dispatch_asks_nothing Effect.givenOut? rfl rfl (fun _ => rfl) now event r.scheduler
  · rw [turn_event ht]
    exact dispatch_asks_nothing Effect.request? rfl rfl (fun _ => rfl) now event r.scheduler
  · rw [turn_event ht]
    exact dispatch_asks_nothing Effect.cancelled? rfl rfl (fun _ => rfl) now event r.scheduler

/-- Only the last generation can be the one whose rendering goes on. -/
theorem Stands.inFlight_eq {generation : Nat} (h : r.Stands)
    (hflight : r.scheduler.inFlight = some generation) :
    generation = r.scheduler.generation := by
  cases h with
  | untouched _ hnone _ =>
    rw [hnone] at hflight
    cases hflight
  | parked _ _ _ _ hnone _ _ =>
    rw [hnone] at hflight
    cases hflight
  | rendering _ _ hlast _ _ _ => exact Option.some.inj (hflight.symm.trans hlast)
  | answered _ _ _ hnone _ _ =>
    rw [hnone] at hflight
    cases hflight

/-- Between two moments a request was accepted, and nothing else happened. -/
structure Accepts (r : Run) (p : Pending) (q : Run) : Prop where
  scheduler : q.scheduler =
    (accept p { r.scheduler with debouncer := r.scheduler.debouncer.clear }).1
  givenOut : q.givenOut = r.givenOut ++ [r.scheduler.generation + 1]
  handed : q.handed = r.handed ++
    if p.pane.showsPreview then [⟨r.scheduler.generation + 1, p.document, p.pane⟩] else []
  cancelled : q.cancelled = r.cancelled ++ r.scheduler.inFlight.toList
  answers : q.answers = r.answers

theorem accepts_take {p : Pending} (hrunning : r.running = true)
    (hturn : r.scheduler.turn (.timer now) =
      accept p { r.scheduler with debouncer := r.scheduler.debouncer.clear }) :
    r.Accepts p (r.take (.timer now)) where
  scheduler := by rw [take_of_running hrunning, hturn]
  givenOut := by rw [givenOut_take hrunning, hturn, accept_givenOut]
  handed := by rw [handed_take hrunning, hturn, accept_requests]
  cancelled := by rw [cancelled_take hrunning, hturn, accept_cancelled]
  answers := by
    rw [answers_take hrunning]
    exact List.append_nil _

namespace Accepts

variable {p : Pending}

theorem generation (haccepts : r.Accepts p q) :
    q.scheduler.generation = r.scheduler.generation + 1 := by
  rw [haccepts.scheduler, accept_generation]

theorem sceneGeneration (haccepts : r.Accepts p q) :
    q.scheduler.scene.generation = r.scheduler.generation + 1 := by
  cases hshows : p.pane.showsPreview with
  | true =>
    rw [haccepts.scheduler, accept_of_shows hshows]
    rfl
  | false =>
    rw [haccepts.scheduler, accept_of_hides hshows]
    rfl

/-- Every request has the new generation or was handed over before. -/
theorem handed_le (haccepts : r.Accepts p q) (h : r.Orderly) :
    ∀ request ∈ q.handed, request.generation ≤ r.scheduler.generation + 1 := by
  intro request hmem
  rw [haccepts.handed, List.mem_append] at hmem
  rcases hmem with hbefore | hnew
  · exact Nat.le_succ_of_le (h.handed request hbefore)
  · split at hnew
    · obtain rfl := List.mem_singleton.mp hnew
      exact Nat.le_refl _
    · cases hnew

/-- The new generation is not cancelled: only the one before can be. -/
theorem cancelled_le (haccepts : r.Accepts p q) (h : r.Orderly) :
    ∀ generation ∈ q.cancelled, generation ≤ r.scheduler.generation := by
  intro generation hmem
  rw [haccepts.cancelled, List.mem_append, Option.mem_toList] at hmem
  rcases hmem with hbefore | hflight
  · exact h.cancelled generation hbefore
  · exact Nat.le_of_eq (h.stands.inFlight_eq hflight)

/-- What is accepted on show is being rendered afterwards. -/
theorem rendering (haccepts : r.Accepts p q) (h : r.Orderly)
    (hfingerprint : p.fingerprint = p.document.fingerprint p.pane)
    (hshows : p.pane.showsPreview = true) : q.Stands := by
  have hscheduler := haccepts.scheduler
  have hhanded := haccepts.handed
  rw [accept_of_shows hshows] at hscheduler
  rw [if_pos hshows] at hhanded
  refine .rendering ⟨r.scheduler.generation + 1, p.document, p.pane⟩ ⟨?_, hshows, ?_⟩ ?_ ?_ ?_ ?_
  · rw [hscheduler, ← hfingerprint]
  · intro other
    rw [hhanded, haccepts.generation, List.mem_append, List.mem_singleton]
    constructor
    · rintro ⟨hbefore | hnew, heq⟩
      · have hle := h.handed other hbefore
        omega
      · exact hnew
    · rintro rfl
      exact ⟨Or.inr rfl, rfl⟩
  · rw [hscheduler]
  · rw [hscheduler]
    rfl
  · intro result hmem
    rw [haccepts.answers] at hmem
    have hle := h.answers result hmem
    rw [haccepts.generation]
    omega
  · intro hmem
    have hle := haccepts.cancelled_le h _ hmem
    rw [haccepts.generation] at hle
    omega

/-- What is accepted out of sight is parked afterwards. -/
theorem parked (haccepts : r.Accepts p q) (h : r.Orderly)
    (hfingerprint : p.fingerprint = p.document.fingerprint p.pane)
    (hhides : p.pane.showsPreview = false) : q.Stands := by
  have hscheduler := haccepts.scheduler
  have hhanded := haccepts.handed
  rw [accept_of_hides hhides] at hscheduler
  rw [if_neg (ne_true_of_eq_false hhides), List.append_nil] at hhanded
  refine .parked p.document p.pane ?_ hhides ?_ ?_ ?_
  · rw [hscheduler, ← hfingerprint]
  · rw [hscheduler]
  · rw [hscheduler]
    rfl
  · intro request hmem
    rw [hhanded] at hmem
    have hle := h.handed request hmem
    rw [haccepts.generation]
    omega

end Accepts

/-- The next generation is new to all that happened before. -/
theorem Orderly.of_accepts {p : Pending} (h : r.Orderly) (haccepts : r.Accepts p q)
    (hfingerprint : p.fingerprint = p.document.fingerprint p.pane) : q.Orderly where
  sceneGeneration := haccepts.sceneGeneration.trans haccepts.generation.symm
  givenOut _ := by
    rw [haccepts.generation, haccepts.givenOut]
    exact List.getLast?_concat
  handed := by
    rw [haccepts.generation]
    exact haccepts.handed_le h
  answers result hmem := by
    rw [haccepts.answers] at hmem
    rw [haccepts.generation]
    exact Nat.le_succ_of_le (h.answers result hmem)
  cancelled generation hmem := by
    rw [haccepts.generation]
    exact Nat.le_succ_of_le (haccepts.cancelled_le h generation hmem)
  stands := by
    cases hshows : p.pane.showsPreview with
    | true => exact haccepts.rendering h hfingerprint hshows
    | false => exact haccepts.parked h hfingerprint hshows

/-- What is accepted at the end of a wait is current, and keeps the generations in order. -/
theorem Orderly.take_timer (h : r.Orderly) (hrunning : r.running = true)
    (hcurrent : r.scheduler.Current) (now : Nat) : (r.take (.timer now)).Orderly := by
  rcases expire_cases now r.scheduler with ⟨_, hnot⟩ | ⟨p, hpending, _, hdue⟩
  · have hturn : r.scheduler.turn (.timer now) = (r.scheduler, []) := hnot
    refine h.of_quiet (quiet_take hrunning h ?_ ?_ ?_ ?_ nofun)
    · rw [hturn]
      constructor <;> rfl
    · rw [hturn, List.filterMap_nil]
    · rw [hturn, List.filterMap_nil]
    · rw [hturn, List.filterMap_nil]
  · obtain ⟨document, _, rfl⟩ := hcurrent.eq_of_pending hpending
    exact h.of_accepts (accepts_take hrunning hdue) rfl

/-- The answer of the last generation settles how it stands. -/
theorem Orderly.take_current {result : RenderResult} {request : Request} {scene : Scene}
    (h : r.Orderly) (hrunning : r.running = true) (hrequested : r.Requested request)
    (heq : result.generation = r.scheduler.generation)
    (hturn : r.scheduler.turn (.answer result) =
      ({ r.scheduler with inFlight := none, scene }, [.publish scene]))
    (hanswers : ∀ result ∈ r.answers, result.generation ≠ r.scheduler.generation)
    (hshows : scene.Shows result.outcome)
    (hkept : scene.generation = r.scheduler.scene.generation) :
    (r.take (.answer result)).Orderly := by
  have hscheduler : (r.take (.answer result)).scheduler =
      { r.scheduler with inFlight := none, scene } := by
    rw [take_of_running hrunning, hturn]
  have hgiven : (r.take (.answer result)).givenOut = r.givenOut := by
    rw [givenOut_take hrunning, hturn]
    exact List.append_nil _
  have hhanded : (r.take (.answer result)).handed = r.handed := by
    rw [handed_take hrunning, hturn]
    exact List.append_nil _
  have hcancelled : (r.take (.answer result)).cancelled = r.cancelled := by
    rw [cancelled_take hrunning, hturn]
    exact List.append_nil _
  have hmem : ∀ other, other ∈ (r.take (.answer result)).answers ↔
      other ∈ r.answers ∨ other = result := by
    intro other
    rw [answers_take hrunning, List.mem_append]
    exact or_congr_right List.mem_singleton
  constructor
  · rw [hscheduler]
    exact hkept.trans h.sceneGeneration
  · rw [hscheduler, hgiven]
    exact h.givenOut
  · rw [hscheduler, hhanded]
    exact h.handed
  · intro other hother
    rw [hscheduler]
    rcases (hmem other).mp hother with hbefore | rfl
    · exact h.answers other hbefore
    · exact Nat.le_of_eq heq
  · rw [hscheduler, hcancelled]
    exact h.cancelled
  · refine .answered request result ⟨?_, hrequested.shows, ?_⟩ ?_ ?_ ?_
    · rw [hscheduler]
      exact hrequested.accepted
    · intro other
      rw [hscheduler, hhanded]
      exact hrequested.unique other
    · rw [hscheduler]
    · intro other
      rw [hscheduler, hmem]
      constructor
      · rintro ⟨hbefore | hnew, hother⟩
        · exact absurd hother (hanswers other hbefore)
        · exact hnew
      · rintro rfl
        exact ⟨Or.inr rfl, heq⟩
    · rw [hscheduler]
      exact hshows

/-- The answer of the rendering that goes on is taken over into the scene. -/
theorem Orderly.take_answer {result : RenderResult} (h : r.Orderly) (hrunning : r.running = true)
    (hadmits : r.Admits (.answer result)) : (r.take (.answer result)).Orderly := by
  obtain ⟨hhanded, honce, hhonest⟩ := hadmits
  obtain ⟨request, hrequest, hof⟩ := List.mem_map.mp hhanded
  by_cases heq : result.generation = r.scheduler.generation
  · cases h.stands with
    | untouched _ _ hnothing =>
      rw [hnothing] at hrequest
      cases hrequest
    | parked _ _ _ _ _ _ hnothing => exact absurd (hof.trans heq) (hnothing request hrequest)
    | answered _ before _ _ hanswer _ =>
      obtain ⟨hbefore, hbeforeEq⟩ := (hanswer before).mpr rfl
      exact absurd (List.mem_map.mpr ⟨before, hbefore, hbeforeEq.trans heq.symm⟩) honce
    | rendering last hlast hflight hstatus hanswers hcancelled =>
      have hnot : result.outcome ≠ .cancelled := by
        intro houtcome
        rw [heq] at hhonest
        exact hcancelled (hhonest houtcome)
      obtain ⟨scene, hscene, hshows, hkept⟩ :=
        Scene.shows_of_reconcile? (heq.trans h.sceneGeneration.symm) hnot
      have hturn : r.scheduler.turn (.answer result) =
          ({ r.scheduler with inFlight := none, scene }, [.publish scene]) := by
        simp only [turn, complete_of_eq heq, heq, hflight, hscene, if_true]
        rfl
      exact h.take_current hrunning hlast heq hturn hanswers hshows hkept
  · have hturn : r.scheduler.turn (.answer result) =
        (r.scheduler, [.remark (.stale result.generation)]) := complete_of_ne heq
    refine h.of_quiet (quiet_take hrunning h ?_ ?_ ?_ ?_ ?_)
    · rw [hturn]
      constructor <;> rfl
    · rw [hturn]
      rfl
    · rw [hturn]
      rfl
    · rw [hturn]
      rfl
    · intro other hother
      cases hother
      have hle := h.handed request hrequest
      omega

/-- Every turn that does not stop the scheduler keeps the generations in order. -/
theorem Orderly.take (h : r.Orderly) (hrunning : r.running = true) (ht : t.ends = false)
    (hadmits : r.Admits t) (hcurrent : r.scheduler.Current) : (r.take t).Orderly := by
  cases t with
  | answer result => exact h.take_answer hrunning hadmits
  | event now event => exact h.take_event hrunning ht
  | hangUp => cases ht
  | timer now => exact h.take_timer hrunning hcurrent now

/-- The generations of a run are in order as long as it goes on. -/
theorem Faithful.orderly (h : r.Faithful) (hrunning : r.running = true) : r.Orderly := by
  refine h.invariant hrunning orderly_start ?_
  intro r t hr ht hcurrent hadmits horderly
  exact horderly.take hr ht hadmits hcurrent

end Scheduler.Run

end SongPreview
