import SongPreview.Proofs.Scheduler.OneRendering

/-!
# What the published scenes say of a generation

Once a scene of a generation shows a page, every later scene of this generation shows the
same page. The generations of the published scenes do not go down, and a generation that
was answered is answered no more; so an observer who knows the generation and the status
of a scene that shows a page knows the page, however many scenes were missed.
-/

namespace SongPreview

namespace Scene

/-- What the scenes of a run keep from an earlier one to a later one: generations do not go
down, and the page of a generation stays. -/
def Precedes (earlier later : Scene) : Prop :=
  earlier.generation < later.generation ∨
    earlier.generation = later.generation ∧
      (earlier.status = .succeeded →
        later.status = .succeeded ∧ later.artifact = earlier.artifact)

variable {a b c : Scene}

theorem Precedes.refl (a : Scene) : a.Precedes a :=
  Or.inr ⟨rfl, fun h => ⟨h, rfl⟩⟩

theorem Precedes.trans (hab : a.Precedes b) (hbc : b.Precedes c) : a.Precedes c := by
  rcases hab with hlt | ⟨heq, hkeeps⟩
  · rcases hbc with hlt' | ⟨heq', -⟩
    · exact Or.inl (Nat.lt_trans hlt hlt')
    · exact Or.inl (heq' ▸ hlt)
  · rcases hbc with hlt' | ⟨heq', hkeeps'⟩
    · exact Or.inl (heq ▸ hlt')
    · refine Or.inr ⟨heq.trans heq', fun hstatus => ?_⟩
      obtain ⟨hstatus', hartifact⟩ := hkeeps hstatus
      obtain ⟨hstatus'', hartifact'⟩ := hkeeps' hstatus'
      exact ⟨hstatus'', hartifact'.trans hartifact⟩

theorem Precedes.generation_le (h : a.Precedes b) : a.generation ≤ b.generation := by
  rcases h with hlt | ⟨heq, -⟩
  · exact Nat.le_of_lt hlt
  · exact Nat.le_of_eq heq

/-- A page that was on show for a generation is still there. -/
theorem Precedes.artifact_eq (h : a.Precedes b) (hgeneration : a.generation = b.generation)
    (hstatus : a.status = .succeeded) : b.status = .succeeded ∧ b.artifact = a.artifact := by
  rcases h with hlt | ⟨-, hkeeps⟩
  · exact absurd hgeneration (Nat.ne_of_lt hlt)
  · exact hkeeps hstatus

/-- A scene that shows a page has one. -/
def Complete (s : Scene) : Prop :=
  s.status = .succeeded → s.artifact.isSome

end Scene

namespace Scheduler

variable {s : Scheduler} {t : Turn}

/-- One scene is published on acceptance: the one that it leaves. -/
theorem accept_scenes (p : Pending) (s : Scheduler) :
    (accept p s).2.filterMap Effect.scene? = [(accept p s).1.scene] := by
  unfold accept
  cases s.inFlight <;> cases p.pane.showsPreview <;> rfl

theorem accept_scene_generation (p : Pending) (s : Scheduler) :
    (accept p s).1.scene.generation = s.generation + 1 ∧
      (accept p s).1.scene.status ≠ .succeeded := by
  cases hshows : p.pane.showsPreview with
  | true =>
    rw [accept_of_shows hshows]
    exact ⟨rfl, nofun⟩
  | false =>
    rw [accept_of_hides hshows]
    exact ⟨rfl, nofun⟩

/-- What is told leaves the scene and publishes nothing, or publishes the scene that it leaves. -/
theorem scenes_of_dispatch (now : Nat) (event : Event) (s : Scheduler) :
    ((s.dispatch now event).2.filterMap Effect.scene? = [] ∧
        (s.dispatch now event).1.scene = s.scene) ∨
      (s.dispatch now event).2.filterMap Effect.scene? = [(s.dispatch now event).1.scene] := by
  cases event with
  | edit document =>
    obtain ⟨debouncer, hconsider⟩ :=
      considerLatest_fst now false { s with latest := some document }
    left
    refine ⟨considerLatest_asks_nothing Effect.scene? rfl _ _ _, ?_⟩
    simp only [dispatch, hconsider]
  | setPane pane =>
    simp only [dispatch]
    split
    · exact Or.inl ⟨rfl, rfl⟩
    · right
      obtain ⟨debouncer, hconsider⟩ :=
        considerLatest_fst now false (s.revise fun scene => { scene with pane }).1
      have hnothing := considerLatest_asks_nothing Effect.scene? rfl now false
        (s.revise fun scene => { scene with pane }).1
      rw [List.filterMap_append, hnothing, hconsider]
      rfl
  | refresh =>
    obtain ⟨debouncer, hconsider⟩ := considerLatest_fst now true s
    left
    refine ⟨considerLatest_asks_nothing Effect.scene? rfl _ _ _, ?_⟩
    simp only [dispatch, hconsider]
  | clearLog => exact Or.inr rfl
  | notice d => exact Or.inr rfl
  | shutdown => exact Or.inl ⟨rfl, rfl⟩

/-- A turn leaves the scene and publishes nothing, or publishes the scene that it leaves. -/
theorem scenes_of_turn (s : Scheduler) (t : Turn) :
    ((s.turn t).2.filterMap Effect.scene? = [] ∧ (s.turn t).1.scene = s.scene) ∨
      (s.turn t).2.filterMap Effect.scene? = [(s.turn t).1.scene] := by
  cases t with
  | answer result =>
    by_cases heq : result.generation = s.generation
    · simp only [turn, complete_of_eq heq]
      cases s.scene.reconcile? result with
      | none => exact Or.inl ⟨rfl, rfl⟩
      | some scene => exact Or.inr rfl
    · simp only [turn, complete_of_ne heq]
      exact Or.inl ⟨rfl, trivial⟩
  | event now event =>
    by_cases hshutdown : event = .shutdown
    · subst hshutdown
      exact Or.inl ⟨(turn_of_ends rfl s).2.2.1, rfl⟩
    · simp only [turn, if_neg hshutdown]
      exact scenes_of_dispatch now event s
  | hangUp => exact Or.inl ⟨(turn_of_ends rfl s).2.2.1, rfl⟩
  | timer now =>
    rcases expire_cases now s with ⟨_, hnot⟩ | ⟨p, _, _, hdue⟩
    · simp only [turn, hnot]
      exact Or.inl ⟨rfl, trivial⟩
    · simp only [turn, hdue]
      exact Or.inr (accept_scenes p _)

/-- What a turn does to the scene: its page stays as it is, the last generation is answered by
what is taken over, or a new generation begins without a page. -/
theorem scene_cases_of_turn (s : Scheduler) (t : Turn) :
    ((s.turn t).1.generation = s.generation ∧
        (s.turn t).1.scene.generation = s.scene.generation ∧
        (s.turn t).1.scene.status = s.scene.status ∧
        (s.turn t).1.scene.artifact = s.scene.artifact) ∨
      (∃ result, t.answer? = some result ∧ result.generation = s.generation ∧
        s.scene.reconcile? result = some (s.turn t).1.scene ∧
        (s.turn t).1.generation = s.generation) ∨
      ((s.turn t).1.generation = s.generation + 1 ∧
        (s.turn t).1.scene.generation = s.generation + 1 ∧
        (s.turn t).1.scene.status ≠ .succeeded) := by
  cases t with
  | answer result =>
    by_cases heq : result.generation = s.generation
    · cases hscene : s.scene.reconcile? result with
      | none =>
        left
        simp only [turn, complete_of_eq heq, hscene, Option.getD_none, and_self]
      | some scene =>
        right
        left
        refine ⟨result, rfl, heq, ?_⟩
        simp only [turn, complete_of_eq heq, hscene, Option.getD_some, and_self]
    · left
      simp only [turn, complete_of_ne heq, and_self]
  | event now event =>
    have hsame := sameRenderings_dispatch now event s
    left
    simp only [turn]
    split <;> exact ⟨hsame.generation, hsame.sceneGeneration, hsame.status, hsame.artifact⟩
  | hangUp => exact Or.inl ⟨rfl, rfl, rfl, rfl⟩
  | timer now =>
    rcases expire_cases now s with ⟨_, hnot⟩ | ⟨p, _, _, hdue⟩
    · left
      simp only [turn, hnot, and_self]
    · simp only [turn, hdue]
      exact Or.inr (Or.inr ⟨accept_generation p _, accept_scene_generation p _⟩)

/-- The scene stays of the last generation. -/
theorem scene_generation_turn (h : s.scene.generation = s.generation) (t : Turn) :
    (s.turn t).1.scene.generation = (s.turn t).1.generation := by
  rcases scene_cases_of_turn s t with ⟨hkeeps, hgeneration, -⟩ | ⟨result, -, -, hscene, hkeeps⟩ |
    ⟨hkeeps, hgeneration, -⟩
  · rw [hgeneration, hkeeps, h]
  · rw [(Scene.settled_of_reconcile? hscene).1, hkeeps, h]
  · rw [hgeneration, hkeeps]

namespace Run

variable {r : Run}

/-- A turn leaves the scene with what was published, or publishes the scene that it leaves. -/
theorem published_cases (r : Run) (t : Turn) :
    ((r.take t).published = r.published ∧ (r.take t).scheduler.scene = r.scheduler.scene) ∨
      (r.take t).published = r.published ++ [(r.take t).scheduler.scene] := by
  cases hrunning : r.running with
  | false =>
    rw [take_of_stopped hrunning]
    exact Or.inl ⟨rfl, rfl⟩
  | true =>
    rw [published_take hrunning, take_of_running hrunning]
    rcases scenes_of_turn r.scheduler t with ⟨hnone, hscene⟩ | hone
    · rw [hnone, List.append_nil]
      exact Or.inl ⟨rfl, hscene⟩
    · rw [hone]
      exact Or.inr rfl

/-- The last scene that was published is the current one. Before the first, observers see the
scene that the run began with. -/
theorem last_published (scene : Scene) (debounce : Nat) (turns : List Turn) :
    ((start scene debounce).after turns).published.getLast?.getD scene =
      ((start scene debounce).after turns).scheduler.scene := by
  refine holds_after (P := fun r => r.published.getLast?.getD scene = r.scheduler.scene)
    (fun r t _ h => ?_) rfl turns
  rcases published_cases r t with ⟨hpublished, hscene⟩ | hpublished
  · rw [hpublished, hscene]
    exact h
  · rw [hpublished, List.getLast?_concat, Option.getD_some]

/-- What is known of the scenes of a run in which no generation is answered twice. -/
structure PagesStay (r : Run) : Prop where
  /-- The scene is of the last generation. -/
  generation : r.scheduler.scene.generation = r.scheduler.generation
  /-- A page is on show only once its generation was answered. -/
  answered : r.scheduler.scene.status = .succeeded →
    r.scheduler.generation ∈ r.answers.map RenderResult.generation
  complete : r.scheduler.scene.Complete
  completes : ∀ scene ∈ r.published, scene.Complete
  ordered : r.published.Pairwise Scene.Precedes
  /-- The scene goes on from everything that was published. -/
  latest : ∀ scene ∈ r.published, scene.Precedes r.scheduler.scene

theorem pagesStay_start {scene : Scene} (h : scene.status ≠ .succeeded) (debounce : Nat) :
    (start scene debounce).PagesStay where
  generation := rfl
  answered hstatus := absurd hstatus h
  complete hstatus := absurd hstatus h
  completes := nofun
  ordered := List.Pairwise.nil
  latest := nofun

/-- Before a new answer its generation was not answered. -/
theorem not_answered_of_nodup (hrunning : r.running = true) {result : RenderResult}
    (ht : t.answer? = some result)
    (hnodup : ((r.take t).answers.map RenderResult.generation).Nodup) :
    result.generation ∉ r.answers.map RenderResult.generation := by
  rw [answers_take hrunning, ht, Option.toList_some, List.map_append, List.nodup_append] at hnodup
  intro hmem
  exact hnodup.2.2 _ hmem _ (List.mem_singleton_self _) rfl

/-- The scene after a turn goes on from the one before it. -/
theorem PagesStay.precedes_turn (h : r.PagesStay)
    (hnew : ∀ result, t.answer? = some result →
      result.generation ∉ r.answers.map RenderResult.generation) :
    r.scheduler.scene.Precedes (r.scheduler.turn t).1.scene := by
  rcases scene_cases_of_turn r.scheduler t with ⟨_, hgeneration, hstatus, hartifact⟩ |
    ⟨result, hanswer, heq, hscene, _⟩ | ⟨_, hgeneration, _⟩
  · exact Or.inr ⟨hgeneration.symm, fun hsucceeded => ⟨hstatus.trans hsucceeded, hartifact⟩⟩
  · have hsame := (Scene.settled_of_reconcile? hscene).1
    refine Or.inr ⟨hsame.symm, fun hsucceeded => ?_⟩
    exact absurd (heq ▸ h.answered hsucceeded) (hnew result hanswer)
  · left
    rw [hgeneration, h.generation]
    exact Nat.lt_succ_self _

/-- The scene that a turn leaves is of the last generation, and shows a page only if it has one
and its generation was answered. -/
theorem PagesStay.scene_turn (h : r.PagesStay) (t : Turn) :
    (r.scheduler.turn t).1.scene.generation = (r.scheduler.turn t).1.generation ∧
      (r.scheduler.turn t).1.scene.Complete ∧
      ((r.scheduler.turn t).1.scene.status = .succeeded → (r.scheduler.turn t).1.generation ∈
        (r.answers ++ t.answer?.toList).map RenderResult.generation) := by
  refine ⟨scene_generation_turn h.generation t, ?_⟩
  rcases scene_cases_of_turn r.scheduler t with ⟨hkeeps, -, hstatus, hartifact⟩ |
    ⟨result, hanswer, heq, hscene, hkeeps⟩ | ⟨-, -, hstatus⟩
  · constructor
    · intro hsucceeded
      rw [hartifact]
      exact h.complete (hstatus ▸ hsucceeded)
    · intro hsucceeded
      rw [hkeeps, List.map_append]
      exact List.mem_append_left _ (h.answered (hstatus ▸ hsucceeded))
  · constructor
    · intro hsucceeded
      rcases (Scene.settled_of_reconcile? hscene).2 with ⟨_, hartifact⟩ | hfailed
      · exact hartifact
      · rw [hfailed] at hsucceeded
        cases hsucceeded
    · intro _
      rw [hkeeps, hanswer, ← heq]
      exact List.mem_map_of_mem (List.mem_append_right _ (List.mem_singleton_self result))
  · exact ⟨fun hsucceeded => absurd hsucceeded hstatus,
      fun hsucceeded => absurd hsucceeded hstatus⟩

theorem PagesStay.take (h : r.PagesStay) (hrunning : r.running = true)
    (hnodup : ((r.take t).answers.map RenderResult.generation).Nodup) : (r.take t).PagesStay := by
  have hprecedes := h.precedes_turn fun result hanswer =>
    not_answered_of_nodup hrunning hanswer hnodup
  obtain ⟨hgeneration, hcomplete, hanswered⟩ := h.scene_turn t
  have hlatest : ∀ scene ∈ r.published, scene.Precedes (r.scheduler.turn t).1.scene :=
    fun scene hscene => (h.latest scene hscene).trans hprecedes
  rw [← answers_take hrunning t] at hanswered
  have hscheduler : (r.take t).scheduler = (r.scheduler.turn t).1 := by
    rw [take_of_running hrunning]
  rcases published_cases r t with ⟨hpublished, _⟩ | hpublished
  · rw [← hscheduler] at hgeneration hcomplete hanswered hlatest
    exact ⟨hgeneration, hanswered, hcomplete, hpublished ▸ h.completes, hpublished ▸ h.ordered,
      hpublished ▸ hlatest⟩
  · rw [hscheduler] at hpublished
    have hordered : (r.take t).published.Pairwise Scene.Precedes := by
      rw [hpublished, List.pairwise_append]
      refine ⟨h.ordered, List.pairwise_singleton _ _, fun scene hscene later hlater => ?_⟩
      rw [List.mem_singleton.mp hlater]
      exact hlatest scene hscene
    have hcases : ∀ scene ∈ (r.take t).published,
        scene ∈ r.published ∨ scene = (r.scheduler.turn t).1.scene := by
      intro scene hscene
      simpa only [hpublished, List.mem_append, List.mem_singleton] using hscene
    rw [← hscheduler] at hgeneration hcomplete hanswered hlatest hcases
    refine ⟨hgeneration, hanswered, hcomplete, ?_, hordered, ?_⟩
    · intro scene hscene
      rcases hcases scene hscene with hbefore | rfl
      · exact h.completes scene hbefore
      · exact hcomplete
    · intro scene hscene
      rcases hcases scene hscene with hbefore | rfl
      · exact hlatest scene hbefore
      · exact Scene.Precedes.refl _

theorem pagesStay_after {scene : Scene} (hscene : scene.status ≠ .succeeded) (debounce : Nat)
    (turns : List Turn)
    (hnodup : (((start scene debounce).after turns).answers.map RenderResult.generation).Nodup) :
    ((start scene debounce).after turns).PagesStay := by
  refine holds_after (P := fun r => (r.answers.map RenderResult.generation).Nodup → r.PagesStay)
    ?_ (fun _ => pagesStay_start hscene debounce) turns hnodup
  intro r t hrunning h hnodup
  refine PagesStay.take (h ?_) hrunning hnodup
  rw [answers_take hrunning, List.map_append, List.nodup_append] at hnodup
  exact hnodup.1

end Run

end Scheduler

end SongPreview
