import SongPreview.Proofs.Scheduler.Publishing
import Mathlib.Data.List.Destutter

/-!
# Renderings do not depend on the log

Clearing the log and adding notices to it go through the queue of everything else that is told,
and each of them publishes a scene. They change nothing but the log: two runs that differ in such
turns alone ask for the same renderings, stand alike but for the log after every other turn, and
show the same scenes, if logs and repetitions are disregarded. The next answer that is taken over
brings its own log, and with it the two logs are the same, too.
-/

namespace SongPreview

/-! ### Lists without repetitions -/

section Repetitions

variable {α : Type} [DecidableEq α] {a : α} {l l' behind : List α}

/-- The first item of a list is not a repetition. -/
theorem exists_destutter'_eq_cons (a : α) (l : List α) :
    ∃ rest, l.destutter' (· ≠ ·) a = a :: rest := by
  induction l with
  | nil => exact ⟨[], rfl⟩
  | cons b l ih =>
    by_cases hb : a ≠ b
    · exact ⟨_, List.destutter'_cons_pos _ hb⟩
    · rwa [List.destutter'_cons_neg _ hb]

/-- What was repeated in front makes no difference behind it. -/
theorem destutter_append_left (l behind : List α) :
    (l.destutter (· ≠ ·) ++ behind).destutter (· ≠ ·) = (l ++ behind).destutter (· ≠ ·) := by
  cases l with
  | nil => rfl
  | cons a l =>
    rw [List.destutter_cons']
    induction l generalizing a with
    | nil => rfl
    | cons b l ih =>
      by_cases hb : a ≠ b
      · obtain ⟨rest, hrest⟩ := exists_destutter'_eq_cons b l
        have hbehind := ih b
        rw [List.destutter'_cons_pos _ hb]
        simp only [hrest, List.cons_append, List.destutter_cons'] at hbehind ⊢
        rw [List.destutter'_cons_pos _ hb, List.destutter'_cons_pos _ hb, hbehind]
      · rw [List.destutter'_cons_neg _ hb, ih a]
        simp only [List.cons_append, List.destutter_cons']
        rw [List.destutter'_cons_neg _ hb]

theorem destutter_append_congr (h : l.destutter (· ≠ ·) = l'.destutter (· ≠ ·))
    (behind : List α) : (l ++ behind).destutter (· ≠ ·) = (l' ++ behind).destutter (· ≠ ·) := by
  rw [← destutter_append_left, h, destutter_append_left]

/-- The last item of a list can be repeated. -/
theorem destutter_concat_of_getLast? (h : l.getLast? = some a) :
    (l ++ [a]).destutter (· ≠ ·) = l.destutter (· ≠ ·) := by
  cases l with
  | nil => cases h
  | cons b l =>
    simp only [List.cons_append, List.destutter_cons']
    induction l generalizing b with
    | nil =>
      obtain rfl : b = a := by simpa using h
      exact List.destutter'_cons_neg [] (not_not_intro rfl)
    | cons c l ih =>
      rw [List.getLast?_cons_cons] at h
      by_cases hc : b ≠ c
      · rw [List.cons_append, List.destutter'_cons_pos _ hc, List.destutter'_cons_pos _ hc, ih c h]
      · obtain rfl := not_not.mp hc
        rw [List.cons_append, List.destutter'_cons_neg _ hc, List.destutter'_cons_neg _ hc, ih b h]

end Repetitions

/-! ### Turns without a log -/

/-- A result that is taken over brings its own log: the one before makes no difference. -/
theorem Scene.reconcile?_clearLog (result : RenderResult) (scene : Scene) :
    scene.clearLog.reconcile? result = scene.reconcile? result :=
  rfl

/-- What is asked for, where a scene that is published has no log. -/
def Effect.withoutLog : Effect → Effect
  | .publish scene => .publish scene.clearLog
  | effect => effect

@[simp] theorem Effect.request?_withoutLog (e : Effect) : e.withoutLog.request? = e.request? := by
  cases e <;> rfl

@[simp] theorem Effect.cancelled?_withoutLog (e : Effect) :
    e.withoutLog.cancelled? = e.cancelled? := by
  cases e <;> rfl

@[simp] theorem Effect.givenOut?_withoutLog (e : Effect) :
    e.withoutLog.givenOut? = e.givenOut? := by
  cases e <;> rfl

/-- Whatever does not look at logs reads the same in effects that are alike but for their logs. -/
theorem filterMap_of_withoutLog {β : Type} {f : Effect → Option β} {effects effects' : List Effect}
    (hf : ∀ e : Effect, f e.withoutLog = f e)
    (h : effects.map Effect.withoutLog = effects'.map Effect.withoutLog) :
    effects.filterMap f = effects'.filterMap f := by
  have hread (effects : List Effect) :
      effects.filterMap f = (effects.map Effect.withoutLog).filterMap f := by
    rw [List.filterMap_map]
    exact List.filterMap_congr fun e _ => (hf e).symm
  rw [hread, h, ← hread]

theorem scenes_of_withoutLog {effects effects' : List Effect}
    (h : effects.map Effect.withoutLog = effects'.map Effect.withoutLog) :
    (effects.filterMap Effect.scene?).map Scene.clearLog =
      (effects'.filterMap Effect.scene?).map Scene.clearLog := by
  rw [List.map_filterMap, List.map_filterMap]
  refine filterMap_of_withoutLog (fun e => ?_) h
  cases e <;> rfl

namespace Scheduler

variable {s t : Scheduler} {result : RenderResult}

/-- The scheduler of a scene whose log is empty. -/
def withoutLog (s : Scheduler) : Scheduler :=
  { s with scene := s.scene.clearLog }

/-- Whether a turn is about the log alone. -/
def Turn.onLog : Turn → Bool
  | .event _ .clearLog => true
  | .event _ (.notice _) => true
  | _ => false

theorem consider_withoutLog (now : Nat) (document : Document) (pane : Pane) (force : Bool)
    (s : Scheduler) :
    s.withoutLog.consider now document pane force =
      ((s.consider now document pane force).1.withoutLog,
        (s.consider now document pane force).2) := by
  by_cases h : force = false ∧ s.accepted = some (document.fingerprint pane)
  · have hleft : s.withoutLog.consider now document pane force = _ := if_pos h
    have hright : s.consider now document pane force = _ := if_pos h
    rw [hleft, hright]
    rfl
  · have hleft : s.withoutLog.consider now document pane force = _ := if_neg h
    have hright : s.consider now document pane force = _ := if_neg h
    rw [hleft, hright]
    rfl

theorem considerLatest_withoutLog (now : Nat) (force : Bool) (s : Scheduler) :
    s.withoutLog.considerLatest now force =
      ((s.considerLatest now force).1.withoutLog, (s.considerLatest now force).2) := by
  cases hlatest : s.latest with
  | none =>
    rw [considerLatest_of_none hlatest, considerLatest_of_none (s := s.withoutLog) hlatest]
  | some document =>
    have hconsidered (s : Scheduler) (h : s.latest = some document) :
        s.considerLatest now force = s.consider now document s.scene.pane force := by
      simp only [considerLatest, h]
    rw [hconsidered s hlatest, hconsidered s.withoutLog hlatest]
    exact consider_withoutLog now document s.scene.pane force s

theorem accept_withoutLog (p : Pending) (s : Scheduler) :
    (accept p s.withoutLog).1 = (accept p s).1.withoutLog ∧
      (accept p s.withoutLog).2 = (accept p s).2.map Effect.withoutLog := by
  rcases s with ⟨scene, debouncer, latest, accepted, generation, inFlight⟩
  simp only [accept, withoutLog]
  cases inFlight <;> cases p.pane.showsPreview <;> exact ⟨rfl, rfl⟩

/-- A result that is taken over leaves the same scheduler whatever the log was. -/
theorem complete_withoutLog (result : RenderResult) (s : Scheduler) :
    (s.withoutLog.complete result).2 = (s.complete result).2 ∧
      (s.withoutLog.complete result).1.withoutLog = (s.complete result).1.withoutLog ∧
      (∀ scene, (s.complete result).2.filterMap Effect.scene? = [scene] →
        (s.withoutLog.complete result).1 = (s.complete result).1 ∧ scene.log = result.log) := by
  by_cases h : result.generation = s.generation
  · have hsame : s.withoutLog.scene.reconcile? result = s.scene.reconcile? result :=
      Scene.reconcile?_clearLog result s.scene
    rw [complete_of_eq h, complete_of_eq (s := s.withoutLog) h, hsame]
    cases hscene : s.scene.reconcile? result with
    | none => exact ⟨rfl, rfl, nofun⟩
    | some scene =>
      refine ⟨rfl, rfl, fun shown hshown => ⟨rfl, ?_⟩⟩
      obtain rfl : scene = shown := by simpa [Effect.scene?] using hshown
      obtain ⟨artifact, status, rfl, -⟩ := Scene.eq_of_reconcile? hscene
      rfl
  · rw [complete_of_ne h, complete_of_ne (s := s.withoutLog) h]
    exact ⟨rfl, rfl, nofun⟩

theorem dispatch_withoutLog {now : Nat} {event : Event} (h : (Turn.event now event).onLog = false)
    (s : Scheduler) :
    (s.withoutLog.dispatch now event).1 = (s.dispatch now event).1.withoutLog ∧
      (s.withoutLog.dispatch now event).2 = (s.dispatch now event).2.map Effect.withoutLog := by
  -- what is considered leads to remarks at most, and a remark shows no log
  have hquiet (s : Scheduler) (force : Bool) :
      (s.considerLatest now force).2.map Effect.withoutLog = (s.considerLatest now force).2 := by
    unfold considerLatest consider
    cases s.latest with
    | none => rfl
    | some document =>
      simp only
      split
      · split <;> rfl
      · rfl
  cases event with
  | edit document =>
    have hconsidered := considerLatest_withoutLog now false { s with latest := some document }
    exact ⟨congrArg Prod.fst hconsidered, (congrArg Prod.snd hconsidered).trans (hquiet _ _).symm⟩
  | setPane pane =>
    have hconsidered :=
      considerLatest_withoutLog now false { s with scene := { s.scene with pane } }
    by_cases hpane : pane = s.scene.pane
    · have hsame : s.dispatch now (.setPane pane) = (s, []) := if_pos hpane
      have hsame' : s.withoutLog.dispatch now (.setPane pane) = (s.withoutLog, []) := if_pos hpane
      rw [hsame, hsame']
      exact ⟨rfl, rfl⟩
    · have hchanged (s : Scheduler) (h : pane ≠ s.scene.pane) :
          s.dispatch now (.setPane pane) =
            let t : Scheduler := { s with scene := { s.scene with pane } }
            ((t.considerLatest now false).1,
              .publish { s.scene with pane } :: (t.considerLatest now false).2) := if_neg h
      rw [hchanged s hpane, hchanged s.withoutLog hpane, List.map_cons, hquiet]
      exact ⟨congrArg Prod.fst hconsidered, congrArg (_ :: ·.2) hconsidered⟩
  | refresh =>
    have hconsidered := considerLatest_withoutLog now true s
    exact ⟨congrArg Prod.fst hconsidered, (congrArg Prod.snd hconsidered).trans (hquiet _ _).symm⟩
  | clearLog => cases h
  | notice d => cases h
  | shutdown => exact ⟨rfl, rfl⟩

/-- A turn that is not about the log leaves alike what was alike but for the log, and asks for the
same. -/
theorem turn_withoutLog {t : Turn} (h : t.onLog = false) (s : Scheduler) :
    (s.withoutLog.turn t).1.withoutLog = (s.turn t).1.withoutLog ∧
      (s.withoutLog.turn t).2.map Effect.withoutLog = (s.turn t).2.map Effect.withoutLog := by
  have htwice (e : Effect) : e.withoutLog.withoutLog = e.withoutLog := by cases e <;> rfl
  cases t with
  | answer result =>
    obtain ⟨heffects, hscheduler, -⟩ := complete_withoutLog result s
    exact ⟨hscheduler, congrArg (List.map Effect.withoutLog) heffects⟩
  | event now event =>
    obtain ⟨hscheduler, heffects⟩ := dispatch_withoutLog h s
    by_cases hend : event = .shutdown
    · subst hend
      exact ⟨rfl, rfl⟩
    · have hgoes : (Turn.event now event).ends = false := by
        cases event with
        | shutdown => exact absurd rfl hend
        | _ => rfl
      rw [turn_event hgoes, turn_event hgoes, hscheduler, heffects, List.map_map]
      exact ⟨rfl, List.map_congr_left fun e _ => htwice e⟩
  | hangUp => exact ⟨rfl, rfl⟩
  | timer now =>
    change (s.withoutLog.expire now).1.withoutLog = (s.expire now).1.withoutLog ∧
      (s.withoutLog.expire now).2.map _ = (s.expire now).2.map _
    rcases expire_cases now s with ⟨hnot, hkept⟩ | ⟨p, hpending, hready, hdue⟩
    · have hkept' : s.withoutLog.expire now = (s.withoutLog, []) := by
        rcases expire_cases now s.withoutLog with ⟨-, hkept'⟩ | ⟨_, -, hready, -⟩
        · exact hkept'
        · exact absurd (hnot.symm.trans hready) Bool.false_ne_true
      rw [hkept, hkept']
      exact ⟨rfl, rfl⟩
    · have hdue' : s.withoutLog.expire now =
          accept p ({ s with debouncer := s.debouncer.clear } : Scheduler).withoutLog := by
        rcases expire_cases now s.withoutLog with ⟨hnot, -⟩ | ⟨q, hpending', -, hdue'⟩
        · exact absurd (hnot.symm.trans hready) Bool.false_ne_true
        · obtain rfl : p = q := Option.some.inj (hpending.symm.trans hpending')
          exact hdue'
      obtain ⟨hscheduler, heffects⟩ :=
        accept_withoutLog p { s with debouncer := s.debouncer.clear }
      rw [hdue, hdue', hscheduler, heffects, List.map_map]
      exact ⟨rfl, List.map_congr_left fun e _ => htwice e⟩

/-- A turn about the log publishes a scene and changes nothing but its log. -/
theorem turn_of_onLog {t : Turn} (h : t.onLog = true) (s : Scheduler) :
    (s.turn t).1.withoutLog = s.withoutLog ∧ t.ends = false ∧
      ∃ scene, (s.turn t).2 = [.publish scene] ∧ scene.clearLog = s.scene.clearLog := by
  cases t with
  | event now event =>
    cases event with
    | clearLog => exact ⟨rfl, rfl, _, rfl, rfl⟩
    | notice d => exact ⟨rfl, rfl, _, rfl, rfl⟩
    | _ => cases h
  | _ => cases h

namespace Run

variable {r q : Run} {t : Turn} {turns : List Turn}

/-- What observers see, from the scene on that they begin with, but for the logs. -/
def shown (first : Scene) (r : Run) : List Scene :=
  (first :: r.published).map Scene.clearLog

/-- How the scheduler stands after each turn that is not about the log, but for the log. -/
def standings : Run → List Turn → List Scheduler
  | _, [] => []
  | r, t :: turns =>
    if t.onLog then (r.take t).standings turns
    else (r.take t).scheduler.withoutLog :: (r.take t).standings turns

/-- Two runs that stand alike but for the log. -/
structure AlikeButLog (r q : Run) : Prop where
  scheduler : r.scheduler.withoutLog = q.scheduler.withoutLog
  running : r.running = q.running

theorem AlikeButLog.effects (h : r.AlikeButLog q) (ht : t.onLog = false) :
    (r.scheduler.turn t).2.map Effect.withoutLog =
      (q.scheduler.turn t).2.map Effect.withoutLog := by
  rw [← (turn_withoutLog ht r.scheduler).2, h.scheduler, (turn_withoutLog ht q.scheduler).2]

/-- Two such runs stand so after the same turn. -/
theorem AlikeButLog.take (h : r.AlikeButLog q) (ht : t.onLog = false) :
    (r.take t).AlikeButLog (q.take t) := by
  cases hrunning : r.running with
  | false =>
    rwa [take_of_stopped hrunning, take_of_stopped (h.running.symm.trans hrunning)]
  | true =>
    rw [take_of_running hrunning, take_of_running (h.running.symm.trans hrunning)]
    refine ⟨?_, rfl⟩
    rw [← (turn_withoutLog ht r.scheduler).1, h.scheduler, (turn_withoutLog ht q.scheduler).1]

/-- They stand so also if only one of them takes a turn about the log. -/
theorem AlikeButLog.take_of_onLog (h : r.AlikeButLog q) (ht : t.onLog = true) :
    (r.take t).AlikeButLog q := by
  cases hrunning : r.running with
  | false => rwa [take_of_stopped hrunning]
  | true =>
    obtain ⟨hscheduler, hends, -⟩ := turn_of_onLog ht r.scheduler
    rw [take_of_running hrunning]
    refine ⟨hscheduler.trans h.scheduler, ?_⟩
    rw [← h.running, hrunning, hends]
    rfl

/-- The scheduler stands after the other turns as it does without the turns about the log. -/
theorem AlikeButLog.standings (h : r.AlikeButLog q) (turns : List Turn) :
    r.standings turns = q.standings (turns.filter fun t => !t.onLog) := by
  induction turns generalizing r q with
  | nil => rfl
  | cons t turns ih =>
    cases ht : t.onLog with
    | true =>
      rw [List.filter_cons_of_neg (by simp [ht]), Run.standings, if_pos ht]
      exact ih (h.take_of_onLog ht)
    | false =>
      rw [List.filter_cons_of_pos (by simp [ht]), Run.standings, Run.standings, ht, if_neg nofun,
        if_neg nofun, (h.take ht).scheduler, ih (h.take ht)]

/-- What the effects of two runs have in common: what was asked for, in order, and the scenes that
were shown, but for their logs and for repetitions. -/
structure ActsAlike (first : Scene) (r q : Run) : Prop extends AlikeButLog r q where
  handed : r.handed = q.handed
  givenOut : r.givenOut = q.givenOut
  cancelled : r.cancelled = q.cancelled
  shown : (r.shown first).destutter (· ≠ ·) = (q.shown first).destutter (· ≠ ·)

theorem shown_take (hrunning : r.running = true) (first : Scene) (t : Turn) :
    (r.take t).shown first =
      r.shown first ++ ((r.scheduler.turn t).2.filterMap Effect.scene?).map Scene.clearLog := by
  rw [shown, published_take hrunning, ← List.cons_append, List.map_append, shown]

/-- The same turn is acted on alike. -/
theorem ActsAlike.take {first : Scene} (h : r.ActsAlike first q) (ht : t.onLog = false) :
    (r.take t).ActsAlike first (q.take t) := by
  cases hrunning : r.running with
  | false =>
    rwa [take_of_stopped hrunning, take_of_stopped (h.running.symm.trans hrunning)]
  | true =>
    have hrunning' : q.running = true := h.running.symm.trans hrunning
    have heffects := h.toAlikeButLog.effects ht
    refine ⟨h.toAlikeButLog.take ht, ?_, ?_, ?_, ?_⟩
    · rw [handed_take hrunning, handed_take hrunning', h.handed,
        filterMap_of_withoutLog Effect.request?_withoutLog heffects]
    · rw [givenOut_take hrunning, givenOut_take hrunning', h.givenOut,
        filterMap_of_withoutLog Effect.givenOut?_withoutLog heffects]
    · rw [cancelled_take hrunning, cancelled_take hrunning', h.cancelled,
        filterMap_of_withoutLog Effect.cancelled?_withoutLog heffects]
    · rw [shown_take hrunning, shown_take hrunning', scenes_of_withoutLog heffects]
      exact destutter_append_congr h.shown _

/-- A turn about the log repeats what was shown, and asks for nothing. -/
theorem ActsAlike.take_of_onLog {first : Scene} (h : r.ActsAlike first q) (ht : t.onLog = true)
    (hlast : r.published.getLast?.getD first = r.scheduler.scene) :
    (r.take t).ActsAlike first q := by
  cases hrunning : r.running with
  | false => rwa [take_of_stopped hrunning]
  | true =>
    obtain ⟨-, -, scene, heffects, hscene⟩ := turn_of_onLog ht r.scheduler
    refine ⟨h.toAlikeButLog.take_of_onLog ht, ?_, ?_, ?_, ?_⟩
    · rw [handed_take hrunning, heffects, ← h.handed]
      exact List.append_nil _
    · rw [givenOut_take hrunning, heffects, ← h.givenOut]
      exact List.append_nil _
    · rw [cancelled_take hrunning, heffects, ← h.cancelled]
      exact List.append_nil _
    · have hshown : (r.shown first).getLast? = some scene.clearLog := by
        rw [hscene, ← hlast, Run.shown, List.getLast?_map, List.getLast?_cons, Option.map_some]
      rw [shown_take hrunning, heffects, ← h.shown]
      exact destutter_concat_of_getLast? hshown

/-- A run acts as it does without its turns about the log. -/
theorem actsAlike_after (scene : Scene) (debounce : Nat) (turns : List Turn) :
    ((start scene debounce).after turns).ActsAlike scene
      ((start scene debounce).after (turns.filter fun t => !t.onLog)) := by
  induction turns using List.reverseRecOn with
  | nil => exact ⟨⟨rfl, rfl⟩, rfl, rfl, rfl, rfl⟩
  | append_singleton turns t ih =>
    rw [after_append, List.filter_append, after_append]
    cases ht : t.onLog with
    | true =>
      rw [List.filter_cons_of_neg (by simp [ht])]
      exact ih.take_of_onLog ht (last_published scene debounce turns)
    | false =>
      rw [List.filter_cons_of_pos (by simp [ht])]
      exact ih.take ht

theorem ActsAlike.symm {first : Scene} (h : r.ActsAlike first q) : q.ActsAlike first r :=
  ⟨⟨h.scheduler.symm, h.running.symm⟩, h.handed.symm, h.givenOut.symm, h.cancelled.symm,
    h.shown.symm⟩

theorem ActsAlike.trans {first : Scene} {r' : Run} (h : r.ActsAlike first q)
    (h' : q.ActsAlike first r') : r.ActsAlike first r' :=
  ⟨⟨h.scheduler.trans h'.scheduler, h.running.trans h'.running⟩, h.handed.trans h'.handed,
    h.givenOut.trans h'.givenOut, h.cancelled.trans h'.cancelled, h.shown.trans h'.shown⟩

/-- An answer that is taken over in one of two runs alike but for the log is taken over in the
other, and ends their difference. -/
theorem AlikeButLog.answer (h : r.AlikeButLog q) {result : RenderResult} {scene : Scene}
    (hpublished : (r.take (.answer result)).published = r.published ++ [scene]) :
    (q.take (.answer result)).published = q.published ++ [scene] ∧ scene.log = result.log ∧
      (r.take (.answer result)).scheduler = (q.take (.answer result)).scheduler := by
  cases hrunning : r.running with
  | false =>
    rw [take_of_stopped hrunning] at hpublished
    simp at hpublished
  | true =>
    have hrunning' : q.running = true := h.running.symm.trans hrunning
    obtain ⟨heffects, -, hr⟩ := complete_withoutLog result r.scheduler
    obtain ⟨heffects', -, hq⟩ := complete_withoutLog result q.scheduler
    have hsame : (q.scheduler.complete result).2 = (r.scheduler.complete result).2 := by
      rw [← heffects', ← h.scheduler, heffects]
    rw [published_take hrunning, List.append_cancel_left_eq] at hpublished
    have hpublished' : (q.scheduler.complete result).2.filterMap Effect.scene? = [scene] :=
      hsame ▸ hpublished
    obtain ⟨hscheduler, hlog⟩ := hr scene hpublished
    obtain ⟨hscheduler', -⟩ := hq scene hpublished'
    rw [published_take hrunning', take_of_running hrunning, take_of_running hrunning',
      List.append_cancel_left_eq]
    refine ⟨hpublished', hlog, ?_⟩
    exact hscheduler.symm.trans (h.scheduler ▸ hscheduler')

/-- **Log operations do not interfere with rendering.** Two runs of one scheduler that differ only
in where the log is cleared and where notices are added to it hand over the same requests, give
out the same generations, cancel the same renderings and stand alike but for the log after each of
the other turns: with the same latest document, the same document waiting since the same moment,
the same accepted fingerprint and the same rendering going on. From the scene that they begin with
they show the same scenes, but for logs and repetitions; and an answer that is taken over in one of
them is taken over in the other, with its log, after which nothing tells the two apart. -/
theorem log_operations_unobservable (scene : Scene) (debounce : Nat) (turns turns' : List Turn)
    (h : turns.filter (fun t => !t.onLog) = turns'.filter fun t => !t.onLog) :
    let opened := start scene debounce
    let r := opened.after turns
    let r' := opened.after turns'
    r.handed = r'.handed ∧ r.givenOut = r'.givenOut ∧ r.cancelled = r'.cancelled ∧
      opened.standings turns = opened.standings turns' ∧
      r.scheduler.withoutLog = r'.scheduler.withoutLog ∧ r.running = r'.running ∧
      (r.shown scene).destutter (· ≠ ·) = (r'.shown scene).destutter (· ≠ ·) ∧
      ∀ result taken, (r.take (.answer result)).published = r.published ++ [taken] →
        (r'.take (.answer result)).published = r'.published ++ [taken] ∧
          taken.log = result.log ∧
          (r.take (.answer result)).scheduler = (r'.take (.answer result)).scheduler := by
  intro opened r r'
  have hr := actsAlike_after scene debounce turns
  have hr' := actsAlike_after scene debounce turns'
  rw [← h] at hr'
  have hacts : r.ActsAlike scene r' := hr.trans hr'.symm
  have hstandings : opened.standings turns = opened.standings turns' := by
    have hself : opened.AlikeButLog opened := ⟨rfl, rfl⟩
    rw [hself.standings turns, hself.standings turns', h]
  exact ⟨hacts.handed, hacts.givenOut, hacts.cancelled, hstandings, hacts.scheduler,
    hacts.running, hacts.shown, fun result taken hpublished =>
      hacts.toAlikeButLog.answer hpublished⟩

/-- A song is rendered, and rendered again before the first answer comes. -/
private def changedTwice : List Turn :=
  [.event 0 (.edit ⟨"[C]I heard", {}, .unsaved "Untitled-1"⟩), .timer 300, .event 400 .refresh,
    .timer 700]

/-- The same, while notices are added and the log is cleared. -/
private def changedAndNoted : List Turn :=
  let noted (now : Nat) : Turn := .event now (.notice (.unattributed .notice "config reloaded" 0))
  [.event 0 .clearLog, .event 0 (.edit ⟨"[C]I heard", {}, .unsaved "Untitled-1"⟩), noted 200,
    .timer 300, noted 310, .event 400 .refresh, noted 500, .timer 700, .event 710 .clearLog,
    noted 720]

/-- Notices between two renderings leave both as they are, and the next page takes their place in
the log. -/
theorem notices_unobservable :
    let opened := start (.new (.unsaved "Untitled-1") .editorAndPreview) 300
    let page : Turn := .answer ⟨2, .success "%PDF".toUTF8, []⟩
    changedAndNoted.filter (fun t => !t.onLog) = changedTwice.filter (fun t => !t.onLog) ∧
      (opened.after changedAndNoted).handed = (opened.after changedTwice).handed ∧
      (opened.after changedAndNoted).scheduler.scene.log ≠
        (opened.after changedTwice).scheduler.scene.log ∧
      ((opened.after changedAndNoted).take page).scheduler =
        ((opened.after changedTwice).take page).scheduler := by
  intro opened page
  have h : changedAndNoted.filter (fun t => !t.onLog) = changedTwice.filter fun t => !t.onLog := rfl
  have hlog : (opened.after changedAndNoted).scheduler.scene.log ≠
      (opened.after changedTwice).scheduler.scene.log := by decide +kernel
  have hpage : ((opened.after changedAndNoted).take page).published =
      (opened.after changedAndNoted).published ++
        [⟨2, some "%PDF".toUTF8, [], .succeeded, .editorAndPreview, .unsaved "Untitled-1"⟩] := by
    decide +kernel
  obtain ⟨hhanded, -, -, -, -, -, -, hanswer⟩ := log_operations_unobservable
    (.new (.unsaved "Untitled-1") .editorAndPreview) 300 changedAndNoted changedTwice h
  exact ⟨h, hhanded, hlog, (hanswer _ _ hpage).2.2⟩

end Run

end Scheduler

end SongPreview
