import SongPreview.Scheduler

/-!
# What the steps of a scheduler change

Each step is described once, by the state it leaves and by what it asks for. Later
proofs use these descriptions and do not open the steps again: what is told only
changes what waits, what is on show and the log; a generation is given out when a
wait is over; a result touches the scene and the rendering that goes on.
-/

namespace SongPreview

namespace Effect

/-- The request that is handed to the renderer, if one is. -/
def request? : Effect → Option Request
  | .start request => some request
  | _ => none

/-- The generation that is cancelled, if one is. -/
def cancelled? : Effect → Option Nat
  | .cancel generation => some generation
  | _ => none

/-- The scene that observers are to see, if there is a new one. -/
def scene? : Effect → Option Scene
  | .publish scene => some scene
  | _ => none

/-- The generation that is given out, if one is: to a request, or to a document that needs
no rendering. -/
def givenOut? : Effect → Option Nat
  | .start request => some request.generation
  | .remark (.needsNoPreview generation) => some generation
  | _ => none

end Effect

/-- The request for a document in a view. -/
def Pending.of (document : Document) (pane : Pane) : Pending :=
  ⟨document, pane, document.fingerprint pane⟩

@[simp] theorem Pane.showsPreview_eq_false {pane : Pane} :
    pane.showsPreview = false ↔ pane = .editorOnly := by
  cases pane <;> decide

/-- A result that is taken over brings a page or a failure, and its log. -/
theorem Scene.eq_of_reconcile? {result : RenderResult} {scene scene' : Scene}
    (h : scene.reconcile? result = some scene') :
    ∃ artifact status, scene' = { scene with artifact, log := result.log, status } ∧
      (status = .succeeded ∧ artifact.isSome ∨ status = .failed) := by
  unfold Scene.reconcile? at h
  split at h
  · cases h
  · cases houtcome : result.outcome with
    | success artifact =>
      simp only [houtcome, Option.some.injEq] at h
      exact ⟨_, _, h.symm, Or.inl ⟨rfl, rfl⟩⟩
    | failed code =>
      simp only [houtcome, Option.some.injEq] at h
      exact ⟨_, _, h.symm, Or.inr rfl⟩
    | cancelled => simp only [houtcome, reduceCtorEq] at h

/-- Taking over a result leaves the view as it is. -/
theorem Scene.pane_of_reconcile? {result : RenderResult} {scene scene' : Scene}
    (h : scene.reconcile? result = some scene') : scene'.pane = scene.pane := by
  obtain ⟨artifact, status, rfl, -⟩ := Scene.eq_of_reconcile? h
  rfl

/-- A result that is taken over leaves the scene with a page or with a failure, under the same
generation. -/
theorem Scene.settled_of_reconcile? {result : RenderResult} {scene scene' : Scene}
    (h : scene.reconcile? result = some scene') :
    scene'.generation = scene.generation ∧
      (scene'.status = .succeeded ∧ scene'.artifact.isSome ∨ scene'.status = .failed) := by
  obtain ⟨artifact, status, rfl, hsettled⟩ := Scene.eq_of_reconcile? h
  exact ⟨rfl, hsettled⟩

namespace Scheduler

variable {s t : Scheduler} {document : Document} {pane : Pane} {now : Nat} {force : Bool}
  {result : RenderResult} {β : Type}

/-- The renderings of two moments are the same: what was accepted, which generation was
given out, which rendering goes on and how the scene stands. Only what waits, the view
and the log may differ. -/
structure SameRenderings (s t : Scheduler) : Prop where
  accepted : t.accepted = s.accepted
  generation : t.generation = s.generation
  inFlight : t.inFlight = s.inFlight
  sceneGeneration : t.scene.generation = s.scene.generation
  artifact : t.scene.artifact = s.scene.artifact
  status : t.scene.status = s.scene.status

/-! ### Considering a document -/

/-- Without a document there is nothing to consider. -/
theorem considerLatest_of_none (h : s.latest = none) : s.considerLatest now force = (s, []) := by
  unfold considerLatest
  rw [h]

/-- A document that was already accepted in this view makes the wait end. -/
theorem considerLatest_of_accepted (h : s.latest = some document)
    (haccepted : s.accepted = some (document.fingerprint s.scene.pane)) :
    (s.considerLatest now false).1 = { s with debouncer := s.debouncer.clear } := by
  unfold considerLatest consider
  rw [h]
  simp only [haccepted, and_self, if_true]

/-- Any other document waits in place of what waited before, and so does a forced one. -/
theorem considerLatest_of_moved (h : s.latest = some document)
    (hmoved : force = true ∨ s.accepted ≠ some (document.fingerprint s.scene.pane)) :
    s.considerLatest now force =
      ({ s with debouncer := s.debouncer.push now (.of document s.scene.pane) }, []) := by
  have hnot : ¬(force = false ∧ s.accepted = some (document.fingerprint s.scene.pane)) := by
    rintro ⟨hforce, haccepted⟩
    rcases hmoved with hmoved | hmoved
    · simp only [hforce, Bool.false_eq_true] at hmoved
    · exact hmoved haccepted
  unfold considerLatest consider
  rw [h]
  simp only [if_neg hnot, Pending.of]

/-- Considering the latest document lets it wait, or makes the wait end, or does nothing if there
is none. -/
theorem considerLatest_cases (now : Nat) (force : Bool) (s : Scheduler) :
    (s.considerLatest now force).1 = s ∨
      (s.considerLatest now force).1 = { s with debouncer := s.debouncer.clear } ∨
      ∃ p, (s.considerLatest now force).1 = { s with debouncer := s.debouncer.push now p } := by
  rcases Option.eq_none_or_eq_some s.latest with hlatest | ⟨document, hlatest⟩
  · exact .inl (by rw [considerLatest_of_none hlatest])
  · by_cases hmoved : force = true ∨ s.accepted ≠ some (document.fingerprint s.scene.pane)
    · exact .inr (.inr ⟨_, by rw [considerLatest_of_moved hlatest hmoved]⟩)
    · obtain ⟨hforce, haccepted⟩ := not_or.mp hmoved
      simp only [Bool.not_eq_true, ne_eq, Decidable.not_not] at hforce haccepted
      exact .inr (.inl (by rw [hforce, considerLatest_of_accepted hlatest haccepted]))

/-- Considering a document touches nothing but the debouncer. -/
theorem considerLatest_fst (now : Nat) (force : Bool) (s : Scheduler) :
    ∃ debouncer, (s.considerLatest now force).1 = { s with debouncer } := by
  rcases considerLatest_cases now force s with hsame | hclear | ⟨p, hpush⟩
  · exact ⟨s.debouncer, hsame⟩
  · exact ⟨_, hclear⟩
  · exact ⟨_, hpush⟩

/-- Considering a document asks for nothing; at most it leads to a remark. -/
theorem considerLatest_asks_nothing (f : Effect → Option β)
    (hback : f (.remark .backToAccepted) = none) (now : Nat) (force : Bool) (s : Scheduler) :
    (s.considerLatest now force).2.filterMap f = [] := by
  unfold considerLatest consider
  cases s.latest with
  | none => rfl
  | some document =>
    simp only
    split
    · split
      · simp only [List.filterMap_cons, hback, List.filterMap_nil]
      · rfl
    · rfl

/-! ### What is told -/

/-- Nothing that is told touches the renderings. -/
theorem sameRenderings_dispatch (now : Nat) (event : Event) (s : Scheduler) :
    SameRenderings s (s.dispatch now event).1 := by
  cases event with
  | edit document =>
    obtain ⟨debouncer, h⟩ := considerLatest_fst now false { s with latest := some document }
    simp only [dispatch, h]
    constructor <;> rfl
  | setPane pane =>
    by_cases hpane : pane = s.scene.pane
    · simp only [dispatch, if_pos hpane]
      constructor <;> rfl
    · obtain ⟨debouncer, h⟩ :=
        considerLatest_fst now false { s with scene := { s.scene with pane } }
      simp only [dispatch, if_neg hpane, revise, h]
      constructor <;> rfl
  | refresh =>
    obtain ⟨debouncer, h⟩ := considerLatest_fst now true s
    simp only [dispatch, h]
    constructor <;> rfl
  | clearLog => constructor <;> rfl
  | notice d => constructor <;> rfl
  | shutdown => constructor <;> rfl

/-- Nothing that is told makes the scheduler hand over or cancel anything. -/
theorem dispatch_asks_nothing (f : Effect → Option β)
    (hback : f (.remark .backToAccepted) = none) (hdown : f (.remark .shuttingDown) = none)
    (hpublish : ∀ scene, f (.publish scene) = none) (now : Nat) (event : Event) (s : Scheduler) :
    (s.dispatch now event).2.filterMap f = [] := by
  cases event with
  | edit document => exact considerLatest_asks_nothing f hback _ _ _
  | setPane pane =>
    simp only [dispatch]
    split
    · rfl
    · simp only [revise, List.filterMap_append, List.filterMap_cons, hpublish, List.filterMap_nil,
        List.nil_append]
      exact considerLatest_asks_nothing f hback _ _ _
  | refresh => exact considerLatest_asks_nothing f hback _ _ _
  | clearLog => simp only [dispatch, revise, List.filterMap_cons, hpublish, List.filterMap_nil]
  | notice d => simp only [dispatch, revise, List.filterMap_cons, hpublish, List.filterMap_nil]
  | shutdown => simp only [dispatch, List.filterMap_cons, hdown, List.filterMap_nil]

/-! ### The end of a wait -/

/-- At the end of a wait either nothing is due, or what waited is accepted. -/
theorem expire_cases (now : Nat) (s : Scheduler) :
    s.debouncer.isReady now = false ∧ s.expire now = (s, []) ∨
      ∃ p, s.debouncer.pending = some p ∧ s.debouncer.isReady now = true ∧
        s.expire now = accept p { s with debouncer := s.debouncer.clear } := by
  unfold expire Debouncer.takeIfReady
  by_cases hready : s.debouncer.isReady now = true
  · cases hpending : s.debouncer.pending with
    | none =>
      simp only [Debouncer.isReady, hpending, Option.isSome_none, Bool.and_false] at hready
      split at hready <;> cases hready
    | some p =>
      right
      exact ⟨p, rfl, hready, by simp only [hready, if_true]⟩
  · left
    simp only [Bool.not_eq_true] at hready
    exact ⟨hready, by simp only [hready, Bool.false_eq_true, if_false]⟩

/-- Accepting a request that is on show begins its rendering. -/
theorem accept_of_shows {p : Pending} (h : p.pane.showsPreview = true) (s : Scheduler) :
    (accept p s).1 =
      { s with
        generation := s.generation + 1
        accepted := some p.fingerprint
        inFlight := some (s.generation + 1)
        scene := s.scene.begin (s.generation + 1) p.document.source } := by
  unfold accept
  simp only [h, if_true, revise]

/-- Accepting a request that is not on show only gives out its generation. -/
theorem accept_of_hides {p : Pending} (h : p.pane.showsPreview = false) (s : Scheduler) :
    (accept p s).1 =
      { s with
        generation := s.generation + 1
        accepted := some p.fingerprint
        inFlight := none
        scene := s.scene.park (s.generation + 1) p.document.source } := by
  unfold accept
  simp only [h, Bool.false_eq_true, if_false, revise]

@[simp] theorem accept_generation (p : Pending) (s : Scheduler) :
    (accept p s).1.generation = s.generation + 1 := by
  unfold accept
  cases p.pane.showsPreview <;> rfl

@[simp] theorem accept_accepted (p : Pending) (s : Scheduler) :
    (accept p s).1.accepted = some p.fingerprint := by
  unfold accept
  cases p.pane.showsPreview <;> rfl

@[simp] theorem accept_debouncer (p : Pending) (s : Scheduler) :
    (accept p s).1.debouncer = s.debouncer := by
  unfold accept
  cases p.pane.showsPreview <;> rfl

@[simp] theorem accept_latest (p : Pending) (s : Scheduler) :
    (accept p s).1.latest = s.latest := by
  unfold accept
  cases p.pane.showsPreview <;> rfl

@[simp] theorem accept_scene_pane (p : Pending) (s : Scheduler) :
    (accept p s).1.scene.pane = s.scene.pane := by
  unfold accept
  cases p.pane.showsPreview <;> rfl

/-- What is handed over on acceptance: one request of the new generation, if it is on show. -/
theorem accept_requests (p : Pending) (s : Scheduler) :
    (accept p s).2.filterMap Effect.request? =
      if p.pane.showsPreview then [⟨s.generation + 1, p.document, p.pane⟩] else [] := by
  unfold accept
  cases s.inFlight <;> cases p.pane.showsPreview <;> rfl

/-- What is cancelled on acceptance: the rendering that went on. -/
theorem accept_cancelled (p : Pending) (s : Scheduler) :
    (accept p s).2.filterMap Effect.cancelled? = s.inFlight.toList := by
  unfold accept
  cases s.inFlight <;> cases p.pane.showsPreview <;> rfl

/-- One generation is given out on acceptance. -/
theorem accept_givenOut (p : Pending) (s : Scheduler) :
    (accept p s).2.filterMap Effect.givenOut? = [s.generation + 1] := by
  unfold accept
  cases s.inFlight <;> cases p.pane.showsPreview <;> rfl

/-- The end hands over nothing and gives out nothing. -/
theorem stop_asks_nothing (f : Effect → Option β) (hcancel : ∀ g, f (.cancel g) = none)
    (s : Scheduler) : s.stop.2.filterMap f = [] := by
  unfold stop
  cases s.inFlight with
  | none => rfl
  | some generation =>
    simp only [Option.toList_some, List.map_cons, List.map_nil, List.filterMap_cons, hcancel,
      List.filterMap_nil]

/-! ### Results -/

/-- A result of another generation changes nothing. -/
theorem complete_of_ne (h : result.generation ≠ s.generation) :
    s.complete result = (s, [.remark (.stale result.generation)]) := by
  unfold complete
  rw [if_pos h]

/-- A result of the last generation ends its rendering and goes to the scene. -/
theorem complete_of_eq (h : result.generation = s.generation) :
    s.complete result =
      ({ s with
          inFlight := if s.inFlight = some result.generation then none else s.inFlight
          scene := (s.scene.reconcile? result).getD s.scene },
        (s.scene.reconcile? result).toList.map .publish) := by
  unfold complete
  rw [if_neg (not_not_intro h)]
  by_cases hflight : s.inFlight = some result.generation
  · simp only [if_pos hflight]
    cases s.scene.reconcile? result <;> rfl
  · simp only [if_neg hflight]
    cases s.scene.reconcile? result <;> rfl

/-- A result touches only the scene, short of its view, and the rendering that goes on. -/
theorem complete_fst (result : RenderResult) (s : Scheduler) :
    ∃ inFlight scene, scene.pane = s.scene.pane ∧
      (s.complete result).1 = { s with inFlight, scene } := by
  by_cases h : result.generation = s.generation
  · refine ⟨_, _, ?_, by rw [complete_of_eq h]⟩
    cases hscene : s.scene.reconcile? result with
    | none => rfl
    | some scene => exact Scene.pane_of_reconcile? hscene
  · exact ⟨s.inFlight, s.scene, rfl, by rw [complete_of_ne h]⟩

/-- A result never hands over or cancels anything. -/
theorem complete_asks_nothing (f : Effect → Option β)
    (hstale : ∀ generation, f (.remark (.stale generation)) = none)
    (hpublish : ∀ scene, f (.publish scene) = none) (result : RenderResult) (s : Scheduler) :
    (s.complete result).2.filterMap f = [] := by
  by_cases h : result.generation = s.generation
  · rw [complete_of_eq h]
    cases s.scene.reconcile? result with
    | none => rfl
    | some scene =>
      simp only [Option.toList_some, List.map_cons, List.map_nil, List.filterMap_cons, hpublish,
        List.filterMap_nil]
  · rw [complete_of_ne h]
    simp only [List.filterMap_cons, hstale, List.filterMap_nil]

end Scheduler

end SongPreview
