import SongPreview.Proofs.Watch.Observing
import Mathlib.Data.List.Chain
import Mathlib.Data.List.Induction

/-!
# Notices are told once

An observer remembers of a log only its length, while the log may grow, be cleared, or be
replaced by that of an answer. To say which entries it tells of, every entry is marked here
with where it comes from: a notice has its number in the run, an entry of an answer the
generation. What lies beyond the remembered length is new in each case. The log only goes on
or begins anew while generation and status stay, and the log of an answer comes with a status
that the generation did not have before.
-/

namespace SongPreview

/-- Where an entry of a log comes from. -/
inductive Origin where
  /-- A notice, by its number in the run. -/
  | notice (number : Nat)
  /-- An answer, by its generation. -/
  | answer (generation : Nat)
  deriving DecidableEq

/-- An entry of a log with its origin. -/
structure Marked where
  diagnostic : Diagnostic
  origin : Origin
  deriving DecidableEq

/-- A scene whose log is marked, with the notices that had been appended when it was on show. -/
structure Sight where
  scene : Scene
  log : List Marked
  noticed : List Marked
  deriving DecidableEq

/-- A rendering has come to its end. -/
def Status.Settled (s : Status) : Prop :=
  s = .succeeded ∨ s = .failed

/-- One key comes after another: its generation is later, or only its rendering has ended. -/
def Later (earlier later : Nat × Status) : Prop :=
  earlier.1 < later.1 ∨
    earlier.1 = later.1 ∧ ¬ earlier.2.Settled ∧ later.2.Settled

theorem Later.trans {a b c : Nat × Status} (hab : Later a b) (hbc : Later b c) : Later a c := by
  rcases hab with hlt | ⟨heq, -, hsettled⟩
  · rcases hbc with hlt' | ⟨heq', -⟩
    · exact Or.inl (Nat.lt_trans hlt hlt')
    · exact Or.inl (heq' ▸ hlt)
  · rcases hbc with hlt' | ⟨-, hnot, -⟩
    · exact Or.inl (heq ▸ hlt')
    · exact absurd hsettled hnot

theorem Later.ne {a b : Nat × Status} (h : Later a b) : b ≠ a := by
  rintro rfl
  rcases h with hlt | ⟨-, hnot, hsettled⟩
  · exact Nat.lt_irrefl _ hlt
  · exact hnot hsettled

/-! ### From one sight to a later one -/

namespace Sight

variable {a b c : Sight}

/-- What an observer knows a sight by. -/
def key (a : Sight) : Nat × Status :=
  Observer.key a.scene

/-- What is told on the second of two sights to an observer who saw the first before. -/
def additions (a b : Sight) : List Marked :=
  if b.key = a.key then b.log.drop a.log.length else []

/-- How a log goes from an earlier sight to a later one: with new notices; or it was cleared, and
holds some notices since; or another key came. Notices may come in between that are not in it. -/
inductive Continues (a b : Sight) : Prop
  | grown (new : List Marked) (known : b.key = a.key) (log : b.log = a.log ++ new)
      (noticed : b.noticed = a.noticed ++ new)
  | cleared (missed : List Marked) (known : b.key = a.key)
      (noticed : b.noticed = a.noticed ++ missed ++ b.log)
  | moved (missed : List Marked) (later : Later a.key b.key)
      (noticed : b.noticed = a.noticed ++ missed)

/-- How a log goes on in one turn. -/
inductive Goes (a b : Sight) : Prop
  | grown (new : List Marked) (known : b.key = a.key) (log : b.log = a.log ++ new)
      (noticed : b.noticed = a.noticed ++ new)
  | cleared (known : b.key = a.key) (log : b.log = []) (noticed : b.noticed = a.noticed)
  | moved (later : Later a.key b.key) (noticed : b.noticed = a.noticed)

theorem Goes.still (known : b.key = a.key) (log : b.log = a.log)
    (noticed : b.noticed = a.noticed) : a.Goes b :=
  .grown [] known (by rw [log, List.append_nil]) (by rw [noticed, List.append_nil])

theorem Goes.continues (h : a.Goes b) : a.Continues b := by
  cases h with
  | grown new known log noticed => exact .grown new known log noticed
  | cleared known log noticed => exact .cleared [] known (by simp [noticed, log])
  | moved later noticed => exact .moved [] later (by rw [noticed, List.append_nil])

theorem Continues.refl (a : Sight) : a.Continues a :=
  (Goes.still rfl rfl rfl).continues

/-- Nothing is forgotten of the notices. -/
theorem Continues.exists_noticed (h : a.Continues b) :
    ∃ more, b.noticed = a.noticed ++ more := by
  cases h with
  | grown new _ _ noticed => exact ⟨new, noticed⟩
  | cleared missed _ noticed => exact ⟨missed ++ b.log, by rw [noticed, List.append_assoc]⟩
  | moved missed _ noticed => exact ⟨missed, noticed⟩

theorem Continues.key_cases (h : a.Continues b) : b.key = a.key ∨ Later a.key b.key := by
  cases h with
  | grown _ known _ _ => exact Or.inl known
  | cleared _ known _ => exact Or.inl known
  | moved _ later _ => exact Or.inr later

/-- Once the key has moved on, only the notices count. -/
theorem Continues.of_later (hab : a.Continues b) (hbc : b.Continues c)
    (hlater : Later a.key c.key) : a.Continues c := by
  obtain ⟨first, hfirst⟩ := hab.exists_noticed
  obtain ⟨second, hsecond⟩ := hbc.exists_noticed
  exact .moved (first ++ second) hlater (by rw [hsecond, hfirst, List.append_assoc])

theorem Continues.trans (hab : a.Continues b) (hbc : b.Continues c) : a.Continues c := by
  -- only as long as the key stays, it matters how the logs go on
  rcases hab.key_cases with hknown | hlater
  · rcases hbc.key_cases with hknown' | hlater'
    · have hsame : c.key = a.key := hknown'.trans hknown
      cases hbc with
      | moved _ later _ => exact absurd hknown' later.ne
      | cleared missed _ noticed =>
        obtain ⟨more, hmore⟩ := hab.exists_noticed
        exact .cleared (more ++ missed) hsame (by simp [noticed, hmore])
      | grown new _ log noticed =>
        cases hab with
        | moved _ later _ => exact absurd hknown later.ne
        | grown old _ log' noticed' =>
          exact .grown (old ++ new) hsame (by simp [log, log']) (by simp [noticed, noticed'])
        | cleared missed _ noticed' =>
          exact .cleared missed hsame (by simp [noticed, noticed', log])
    · exact hab.of_later hbc (hknown ▸ hlater')
  · rcases hbc.key_cases with hknown' | hlater'
    · exact hab.of_later hbc (hknown' ▸ hlater)
    · exact hab.of_later hbc (hlater.trans hlater')

/-- What is told on a later sight are notices that came since, the last ones of these. -/
theorem Continues.exists_missed (h : a.Continues b) :
    ∃ missed, b.noticed = a.noticed ++ missed ++ a.additions b := by
  unfold additions
  cases h with
  | grown new known log noticed =>
    exact ⟨[], by simp [known, log, noticed]⟩
  | cleared missed known noticed =>
    refine ⟨missed ++ b.log.take a.log.length, ?_⟩
    simp [known, noticed]
  | moved missed later noticed =>
    exact ⟨missed, by simp [later.ne, noticed]⟩

/-- After one turn no notice is missed. -/
theorem Goes.noticed_eq (h : a.Goes b) : b.noticed = a.noticed ++ a.additions b := by
  unfold additions
  cases h with
  | grown new known log noticed => simp [known, log, noticed]
  | cleared known log noticed => simp [known, log, noticed]
  | moved later noticed => simp [later.ne, noticed]

end Sight

/-! ### The marks of a run -/

namespace Scheduler

/-- The notice that is appended, if one is. -/
def Turn.notice? : Turn → Option Diagnostic
  | .event _ (.notice d) => some d
  | _ => none

/-- The log after a turn. -/
theorem log_of_turn (s : Scheduler) (t : Turn) :
    (s.turn t).1.scene.log =
      match t with
      | .event _ .clearLog => []
      | .event _ (.notice d) => s.scene.log ++ [d]
      | .answer result =>
        if result.generation = s.generation then
          ((s.scene.reconcile? result).getD s.scene).log
        else s.scene.log
      | _ => s.scene.log := by
  cases t with
  | answer result =>
    by_cases heq : result.generation = s.generation
    · simp only [turn, complete_of_eq heq, if_pos heq]
    · simp only [turn, complete_of_ne heq, if_neg heq]
  | event now event =>
    cases event with
    | edit document =>
      obtain ⟨debouncer, h⟩ := considerLatest_fst now false { s with latest := some document }
      rw [turn_event rfl]
      simp only [dispatch, h]
    | setPane pane =>
      obtain ⟨debouncer, h⟩ :=
        considerLatest_fst now false { s with scene := { s.scene with pane } }
      rw [turn_event rfl]
      simp only [dispatch, revise, h]
      split <;> rfl
    | refresh =>
      obtain ⟨debouncer, h⟩ := considerLatest_fst now true s
      rw [turn_event rfl]
      simp only [dispatch, h]
    | clearLog => rfl
    | notice d => rfl
    | shutdown => rfl
  | hangUp => rfl
  | timer now =>
    rcases expire_cases now s with ⟨_, hnot⟩ | ⟨p, _, _, hdue⟩
    · simp only [turn, hnot]
    · simp only [turn, hdue]
      cases hshows : p.pane.showsPreview with
      | true => rw [accept_of_shows hshows]; rfl
      | false => rw [accept_of_hides hshows]; rfl

/-- No rendering has ended when a generation begins. -/
theorem accept_unsettled (p : Pending) (s : Scheduler) :
    ¬ (accept p s).1.scene.status.Settled := by
  cases hshows : p.pane.showsPreview with
  | true =>
    rw [accept_of_shows hshows]
    exact fun h => h.elim nofun nofun
  | false =>
    rw [accept_of_hides hshows]
    exact fun h => h.elim nofun nofun

namespace Run

/-- The notices that were appended. -/
def notices (r : Run) : List Diagnostic :=
  r.turns.filterMap Turn.notice?

/-- The notices that were appended, by their numbers. -/
def numbered (r : Run) : List Marked :=
  r.notices.zipIdx.map fun (d, number) => ⟨d, .notice number⟩

variable {r : Run} {t : Turn}

theorem numbered_take (h : r.running = true) (t : Turn) :
    (r.take t).numbered =
      r.numbered ++ (t.notice?.map fun d => ⟨d, .notice r.notices.length⟩).toList := by
  have hnotices : (r.take t).notices = r.notices ++ t.notice?.toList := by
    rw [take_of_running h]
    simp only [notices, List.filterMap_append, List.filterMap_cons, List.filterMap_nil]
    cases t.notice? <;> rfl
  rw [numbered, hnotices, List.zipIdx_append, List.map_append, numbered, Nat.zero_add]
  cases t.notice? <;> rfl

theorem nodup_numbered (r : Run) : r.numbered.Nodup := by
  refine List.Nodup.of_map Marked.origin ?_
  have horigins : r.numbered.map Marked.origin =
      (r.notices.zipIdx.map Prod.snd).map Origin.notice := by
    rw [numbered, List.map_map, List.map_map]
    rfl
  rw [horigins, List.zipIdx_map_snd]
  exact List.Nodup.map (fun _ _ h => Origin.notice.inj h) List.nodup_range'

end Run

/-- A run whose log is marked. -/
structure Chronicle where
  run : Run
  now : Sight
  /-- What was published. -/
  shown : List Sight := []

namespace Chronicle

variable {c : Chronicle} {t : Turn}

/-- The beginning of a run with a new scene. -/
def start (source : Source) (pane : Pane) (debounce : Nat) : Chronicle where
  run := Run.start (.new source pane) debounce
  now := ⟨.new source pane, [], []⟩

/-- The marked log after a turn. -/
def marks (c : Chronicle) : Turn → List Marked
  | .event _ .clearLog => []
  | .event _ (.notice d) => c.now.log ++ [⟨d, .notice c.run.notices.length⟩]
  | .answer result =>
    if result.generation = c.run.scheduler.generation then
      match c.run.scheduler.scene.reconcile? result with
      | some _ => result.log.map fun d => ⟨d, .answer result.generation⟩
      | none => c.now.log
    else c.now.log
  | _ => c.now.log

/-- What is on show after a turn. -/
def next (c : Chronicle) (t : Turn) : Sight :=
  ⟨(c.run.scheduler.turn t).1.scene, c.marks t, (c.run.take t).numbered⟩

/-- The chronicle with one more turn. -/
def take (c : Chronicle) (t : Turn) : Chronicle :=
  if c.run.running then
    { run := c.run.take t
      now := c.next t
      shown := c.shown ++ ((c.run.scheduler.turn t).2.filterMap Effect.scene?).map
        fun scene => { c.next t with scene } }
  else c

/-- The chronicle with some more turns. -/
def after (c : Chronicle) (turns : List Turn) : Chronicle :=
  turns.foldl take c

/-- The run goes on by itself, with the scenes that it publishes. -/
theorem run_after (c : Chronicle) (turns : List Turn) :
    (c.after turns).run = c.run.after turns := by
  induction turns generalizing c with
  | nil => rfl
  | cons t turns ih =>
    refine (ih (c.take t)).trans (congrArg (Run.after · turns) ?_)
    rw [take]
    split
    · rfl
    · next h => rw [Run.take_of_stopped (by simpa using h)]

/-- What the marks of a run keep to in which no generation is answered twice. -/
structure Sound (first : Sight) (c : Chronicle) : Prop where
  scene : c.now.scene = c.run.scheduler.scene
  noticed : c.now.noticed = c.run.numbered
  generation : c.run.scheduler.scene.generation = c.run.scheduler.generation
  /-- A rendering has ended only once its generation was answered. -/
  answered : c.run.scheduler.scene.status.Settled →
    c.run.scheduler.generation ∈ c.run.answers.map RenderResult.generation
  published : c.shown.map Sight.scene = c.run.published
  /-- The marks are on the entries of the log. -/
  log : ∀ s ∈ c.now :: c.shown, s.log.map Marked.diagnostic = s.scene.log
  last : (first :: c.shown).getLast? = some c.now
  ordered : (first :: c.shown).Pairwise Sight.Continues
  /-- From one published scene to the next no notice is missed. -/
  chained : (first :: c.shown).IsChain fun a b => b.noticed = a.noticed ++ a.additions b

variable {first : Sight}

theorem sound_start (source : Source) (pane : Pane) (debounce : Nat) :
    (start source pane debounce).Sound ⟨.new source pane, [], []⟩ where
  scene := rfl
  noticed := rfl
  generation := rfl
  answered := fun h => by rcases h with h | h <;> cases h
  published := rfl
  log s hs := by
    rw [List.mem_singleton.mp hs]
    rfl
  last := rfl
  ordered := List.pairwise_singleton _ _
  chained := List.IsChain.singleton _

theorem Sound.noticed_next (h : c.Sound first) (hrunning : c.run.running = true) (t : Turn) :
    (c.next t).noticed = c.now.noticed ++
      (t.notice?.map fun d => ⟨d, .notice c.run.notices.length⟩).toList := by
  rw [h.noticed]
  exact Run.numbered_take hrunning t

/-- Without a notice there is nothing new to tell. -/
theorem Sound.noticed_next_of_none (h : c.Sound first) (hrunning : c.run.running = true)
    (hnone : t.notice? = none) : (c.next t).noticed = c.now.noticed := by
  rw [h.noticed_next hrunning, hnone, Option.map_none, Option.toList_none, List.append_nil]

/-- A turn that leaves the scene and the marks leaves what is on show. -/
theorem Sound.goes_of_still (h : c.Sound first) (hrunning : c.run.running = true)
    (hnone : t.notice? = none) (hmarks : c.marks t = c.now.log)
    (hscene : (c.run.scheduler.turn t).1.scene = c.run.scheduler.scene) :
    c.now.Goes (c.next t) := by
  refine .still ?_ hmarks (h.noticed_next_of_none hrunning hnone)
  simp only [Sight.key, next, hscene, h.scene]

/-- A new answer that is taken over ends the rendering of the generation, which had not ended. -/
theorem Sound.goes_answer (h : c.Sound first) (hrunning : c.run.running = true)
    {result : RenderResult}
    (hnew : result.generation ∉ c.run.answers.map RenderResult.generation) :
    c.now.Goes (c.next (.answer result)) := by
  by_cases heq : result.generation = c.run.scheduler.generation
  · have hturn := complete_of_eq heq
    cases hscene : c.run.scheduler.scene.reconcile? result with
    | none =>
      refine h.goes_of_still hrunning rfl ?_ ?_
      · simp only [marks, if_pos heq, hscene]
      · simp only [turn, hturn, hscene, Option.getD_none]
    | some scene =>
      obtain ⟨hgeneration, hends⟩ := Scene.settled_of_reconcile? hscene
      have hafter : (c.next (.answer result)).scene = scene := by
        simp only [next, turn, hturn, hscene, Option.getD_some]
      refine .moved (Or.inr ⟨?_, ?_, ?_⟩) (h.noticed_next_of_none hrunning rfl)
      · simp only [Sight.key, Observer.key, hafter, h.scene, hgeneration]
      · -- had its rendering ended before, the generation would be answered twice
        simp only [Sight.key, Observer.key, h.scene]
        intro hsettled
        exact hnew (heq ▸ h.answered hsettled)
      · simp only [Sight.key, Observer.key, hafter]
        exact hends.imp And.left id
  · refine h.goes_of_still hrunning rfl ?_ ?_
    · simp only [marks, if_neg heq]
    · simp only [turn, complete_of_ne heq]

/-- What is told changes the log at most by a notice or to nothing. -/
theorem Sound.goes_event (h : c.Sound first) (hrunning : c.run.running = true) (now : Nat)
    (event : Event) : c.now.Goes (c.next (.event now event)) := by
  have hsame := sameRenderings_dispatch now event c.run.scheduler
  have hscene : (c.run.scheduler.turn (.event now event)).1.scene =
      (c.run.scheduler.dispatch now event).1.scene := by
    simp only [turn]
    split <;> rfl
  have hkey : (c.next (.event now event)).key = c.now.key := by
    simp only [Sight.key, next, Observer.key, hscene, hsame.sceneGeneration, hsame.status, h.scene]
  cases event with
  | clearLog => exact .cleared hkey rfl (h.noticed_next_of_none hrunning rfl)
  | notice d => exact .grown _ hkey rfl (h.noticed_next hrunning _)
  | edit document => exact .still hkey rfl (h.noticed_next_of_none hrunning rfl)
  | setPane pane => exact .still hkey rfl (h.noticed_next_of_none hrunning rfl)
  | refresh => exact .still hkey rfl (h.noticed_next_of_none hrunning rfl)
  | shutdown => exact .still hkey rfl (h.noticed_next_of_none hrunning rfl)

/-- A wait that is over begins a new generation and leaves the log. -/
theorem Sound.goes_timer (h : c.Sound first) (hrunning : c.run.running = true) (now : Nat) :
    c.now.Goes (c.next (.timer now)) := by
  rcases expire_cases now c.run.scheduler with ⟨_, hnot⟩ | ⟨p, _, _, hdue⟩
  · refine h.goes_of_still hrunning rfl rfl ?_
    simp only [turn, hnot]
  · refine .moved (Or.inl ?_) (h.noticed_next_of_none hrunning rfl)
    have haccepted : (c.next (.timer now)).scene.generation = c.run.scheduler.generation + 1 := by
      simp only [next, turn, hdue]
      exact (accept_scene_generation p _).1
    simp only [Sight.key, Observer.key, haccepted, h.scene, h.generation]
    exact Nat.lt_succ_self _

/-- A turn goes on from what was on show, if its answer is new. -/
theorem Sound.goes (h : c.Sound first) (hrunning : c.run.running = true)
    (hnew : ∀ result, t.answer? = some result →
      result.generation ∉ c.run.answers.map RenderResult.generation) :
    c.now.Goes (c.next t) := by
  cases t with
  | answer result => exact h.goes_answer hrunning (hnew result rfl)
  | event now event => exact h.goes_event hrunning now event
  | hangUp => exact h.goes_of_still hrunning rfl rfl rfl
  | timer now => exact h.goes_timer hrunning now

/-- The marks of a turn are on the entries of its log. -/
theorem Sound.log_next (h : c.Sound first) (t : Turn) :
    (c.next t).log.map Marked.diagnostic = (c.next t).scene.log := by
  have hnow : c.now.log.map Marked.diagnostic = c.run.scheduler.scene.log := by
    rw [h.log c.now (List.mem_cons_self ..), h.scene]
  rw [next, log_of_turn]
  cases t with
  | answer result =>
    simp only [marks]
    split
    · cases hscene : c.run.scheduler.scene.reconcile? result with
      | none => exact hnow
      | some scene =>
        obtain ⟨artifact, status, rfl, -⟩ := Scene.eq_of_reconcile? hscene
        simp only [Option.getD_some, List.map_map]
        exact List.map_id _
    · exact hnow
  | event now event =>
    cases event with
    | notice d => simp only [marks, List.map_append, List.map_singleton, hnow]
    | clearLog => rfl
    | _ => exact hnow
  | hangUp => exact hnow
  | timer now => exact hnow

/-- A turn that publishes nothing leaves what was on show. -/
theorem Sound.next_of_silent (h : c.Sound first) (hrunning : c.run.running = true)
    (hscene : (c.run.scheduler.turn t).1.scene = c.run.scheduler.scene)
    (hsilent : (c.run.scheduler.turn t).2.filterMap Effect.scene? = []) : c.next t = c.now := by
  have hmarks : c.marks t = c.now.log ∧ t.notice? = none := by
    cases t with
    | answer result =>
      refine ⟨?_, rfl⟩
      simp only [marks]
      split
      · next heq =>
        cases htaken : c.run.scheduler.scene.reconcile? result with
        | none => rfl
        | some scene =>
          simp [turn, complete_of_eq heq, htaken, Effect.scene?] at hsilent
      · rfl
    | event now event =>
      cases event with
      | notice d => cases hsilent
      | clearLog => cases hsilent
      | _ => exact ⟨rfl, rfl⟩
    | hangUp => exact ⟨rfl, rfl⟩
    | timer now => exact ⟨rfl, rfl⟩
  have hnoticed : (c.run.take t).numbered = c.now.noticed :=
    h.noticed_next_of_none hrunning hmarks.2
  rw [next, hscene, hmarks.1, hnoticed, ← h.scene]

/-- What is on show goes on from everything that was. -/
theorem Sound.continues_now (h : c.Sound first) {a : Sight} (ha : a ∈ first :: c.shown) :
    a.Continues c.now := by
  obtain ⟨before, hbefore⟩ := List.getLast?_eq_some_iff.mp h.last
  have hordered := h.ordered
  rw [hbefore, List.pairwise_append] at hordered
  rw [hbefore, List.mem_append, List.mem_singleton] at ha
  rcases ha with hmem | rfl
  · exact hordered.2.2 a hmem c.now (List.mem_singleton_self _)
  · exact Sight.Continues.refl _

/-- The scene that a turn leaves is of the last generation, and its rendering has ended only once
it was answered. -/
theorem Sound.scene_take (h : c.Sound first) (hrunning : c.run.running = true) (t : Turn) :
    (c.run.take t).scheduler.scene.generation = (c.run.take t).scheduler.generation ∧
      ((c.run.take t).scheduler.scene.status.Settled → (c.run.take t).scheduler.generation ∈
        (c.run.take t).answers.map RenderResult.generation) := by
  have hscheduler : (c.run.take t).scheduler = (c.run.scheduler.turn t).1 := by
    rw [Run.take_of_running hrunning]
  rw [Run.answers_take hrunning, hscheduler]
  refine ⟨scene_generation_turn h.generation t, fun hsettled => ?_⟩
  rcases scene_cases_of_turn c.run.scheduler t with ⟨hkeeps, -, hstatus, -⟩ |
    ⟨result, hanswer, heq, -, hkeeps⟩ | ⟨hkeeps, -, -⟩
  · rw [hkeeps, List.map_append]
    exact List.mem_append_left _ (h.answered (hstatus ▸ hsettled))
  · rw [hkeeps, hanswer, ← heq]
    exact List.mem_map_of_mem (List.mem_append_right _ (List.mem_singleton_self result))
  · rcases turn_accepts_or_keeps c.run.scheduler t with ⟨_, p, _, _, _, haccept⟩ | ⟨hsame, -⟩
    · rw [haccept] at hsettled
      exact absurd hsettled (accept_unsettled p _)
    · omega

/-- A turn that publishes nothing only lets the run go on. -/
theorem Sound.take_of_silent (h : c.Sound first) (hrunning : c.run.running = true)
    (hscene : (c.run.scheduler.turn t).1.scene = c.run.scheduler.scene)
    (hsilent : (c.run.scheduler.turn t).2.filterMap Effect.scene? = []) :
    (c.take t).Sound first := by
  obtain ⟨hgeneration, hanswered⟩ := h.scene_take hrunning t
  have hnow := h.next_of_silent hrunning hscene hsilent
  have hpublished := Run.published_take hrunning t
  rw [hsilent, List.append_nil] at hpublished
  rw [Chronicle.take, if_pos hrunning, hsilent, List.map_nil, List.append_nil, hnow]
  constructor
  · rw [h.scene, Run.take_of_running hrunning, hscene]
  · rw [← hnow]
    rfl
  · exact hgeneration
  · exact hanswered
  · exact h.published.trans hpublished.symm
  · exact h.log
  · exact h.last
  · exact h.ordered
  · exact h.chained

/-- A turn that publishes the scene that it leaves lets the chronicle go on with it. -/
theorem Sound.take_of_published (h : c.Sound first) (hrunning : c.run.running = true)
    (hgoes : c.now.Goes (c.next t))
    (hone : (c.run.scheduler.turn t).2.filterMap Effect.scene? =
      [(c.run.scheduler.turn t).1.scene]) : (c.take t).Sound first := by
  obtain ⟨hgeneration, hanswered⟩ := h.scene_take hrunning t
  have hlog := h.log_next t
  have hpublished := Run.published_take hrunning t
  have hshown : { c.next t with scene := (c.run.scheduler.turn t).1.scene } = c.next t := rfl
  rw [hone] at hpublished
  rw [Chronicle.take, if_pos hrunning, hone, List.map_singleton, hshown]
  constructor
  · rw [Run.take_of_running hrunning]
    rfl
  · rfl
  · exact hgeneration
  · exact hanswered
  · rw [List.map_append, h.published, hpublished]
    rfl
  · intro s hs
    have hcases : s = c.next t ∨ s ∈ c.shown := by
      simp only [List.mem_cons, List.mem_append, List.not_mem_nil, or_false] at hs
      exact hs.elim Or.inl Or.symm
    rcases hcases with rfl | hbefore
    · exact hlog
    · exact h.log s (List.mem_cons_of_mem _ hbefore)
  · rw [← List.cons_append, List.getLast?_concat]
  · rw [← List.cons_append, List.pairwise_append]
    refine ⟨h.ordered, List.pairwise_singleton _ _, fun a ha b hb => ?_⟩
    rw [List.mem_singleton.mp hb]
    exact (h.continues_now ha).trans hgoes.continues
  · rw [← List.cons_append, List.isChain_append]
    refine ⟨h.chained, List.IsChain.singleton _, fun a ha b hb => ?_⟩
    obtain rfl : c.now = a := Option.some.inj (h.last.symm.trans ha)
    obtain rfl : c.next t = b := Option.some.inj hb
    exact hgoes.noticed_eq

theorem Sound.take (h : c.Sound first) (hrunning : c.run.running = true)
    (hnew : ∀ result, t.answer? = some result →
      result.generation ∉ c.run.answers.map RenderResult.generation) : (c.take t).Sound first := by
  rcases scenes_of_turn c.run.scheduler t with ⟨hsilent, hscene⟩ | hone
  · exact h.take_of_silent hrunning hscene hsilent
  · exact h.take_of_published hrunning (h.goes hrunning hnew) hone

theorem sound_after (source : Source) (pane : Pane) (debounce : Nat) (turns : List Turn)
    (hnodup : (((Run.start (.new source pane) debounce).after turns).answers.map
      RenderResult.generation).Nodup) :
    ((start source pane debounce).after turns).Sound ⟨.new source pane, [], []⟩ := by
  induction turns using List.reverseRecOn with
  | nil => exact sound_start source pane debounce
  | append_singleton turns t ih =>
    have hrun : ((start source pane debounce).after turns).run =
        (Run.start (.new source pane) debounce).after turns := run_after _ _
    rw [Run.after_append, ← hrun, Run.after_cons, Run.after_nil] at hnodup
    rw [← hrun] at ih
    rw [after, List.foldl_concat]
    cases hrunning : ((start source pane debounce).after turns).run.running with
    | false =>
      rw [Run.take_of_stopped hrunning] at hnodup
      rw [Chronicle.take, if_neg (by simpa [after] using hrunning)]
      exact ih hnodup
    | true =>
      have hnew : ∀ result, t.answer? = some result → _ :=
        fun _ h => Run.not_answered_of_nodup hrunning h hnodup
      rw [Run.answers_take hrunning, List.map_append, List.nodup_append] at hnodup
      exact (ih hnodup.1).take hrunning hnew

end Chronicle

end Scheduler

/-! ### What is told -/

/-- The line that is printed for an entry. -/
def Marked.line (entry : Marked) : String :=
  Terminal.diagnosticLine entry.diagnostic

/-- An observer with what it has told of the logs of scenes that it knew. -/
structure Listener where
  observer : Observer
  printed : String := ""
  told : List Marked := []

namespace Listener

variable {l : Listener} {a b : Sight} {looks : List (Machine × Sight)}

/-- A look at what is on show, on a machine as others left it. -/
def look (l : Listener) (m : Machine) (s : Sight) : Listener :=
  let seen := Observer.observe s.scene (m, l.observer)
  if s.key = l.observer.seen then
    { observer := seen.2.2
      printed := l.printed ++ seen.1
      told := l.told ++ s.log.drop l.observer.seenLog }
  else { l with observer := seen.2.2 }

/-- The observer after some looks. -/
def after (l : Listener) (looks : List (Machine × Sight)) : Listener :=
  looks.foldl (fun l look => l.look look.1 look.2) l

/-- What an observer has seen last, and what it has printed. -/
structure Knows (l : Listener) (a : Sight) : Prop where
  seen : l.observer.seen = a.key
  seenLog : l.observer.seenLog = a.log.length
  printed : l.printed = String.join (l.told.map Marked.line)

/-- A look tells of what was added to the log, and of nothing if the key is new. -/
theorem Knows.look (h : l.Knows a) (hlog : b.log.map Marked.diagnostic = b.scene.log)
    (m : Machine) : (l.look m b).Knows b ∧ (l.look m b).told = l.told ++ a.additions b := by
  obtain ⟨o', -, -, hseen, hseenLog, hobserve⟩ := Observer.snd_observe b.scene m l.observer
  have hafter : (Observer.observe b.scene (m, l.observer)).2.2 = o' := by rw [hobserve]
  have hlength : b.scene.log.length = b.log.length := by rw [← hlog, List.length_map]
  by_cases hknown : b.key = a.key
  · have hkey : Observer.key b.scene = l.observer.seen := hknown.trans h.seen.symm
    have htext : (Observer.observe b.scene (m, l.observer)).1 =
        String.join ((b.log.drop l.observer.seenLog).map Marked.line) := by
      rw [Observer.observe_eq, if_pos hkey, ← hlog, ← List.map_drop, List.map_map]
      rfl
    rw [Listener.look, Sight.key, if_pos hkey, hafter]
    refine ⟨⟨hseen, hseenLog.trans hlength, ?_⟩, ?_⟩
    · rw [htext, h.printed, List.map_append, String.join_append]
    · rw [Sight.additions, if_pos hknown, h.seenLog]
  · have hkey : b.key ≠ l.observer.seen := fun heq => hknown (heq.trans h.seen)
    rw [Listener.look, if_neg hkey, hafter]
    refine ⟨⟨hseen, hseenLog.trans hlength, h.printed⟩, ?_⟩
    rw [Sight.additions, if_neg hknown, List.append_nil]

/-- The log of everything that is looked at is marked. -/
def AllMarked (looks : List (Machine × Sight)) : Prop :=
  ∀ s ∈ looks.map Prod.snd, s.log.map Marked.diagnostic = s.scene.log

theorem Knows.after (h : l.Knows a) (hmarked : AllMarked looks) :
    (l.after looks).Knows ((looks.map Prod.snd).getLast?.getD a) := by
  induction looks generalizing l a with
  | nil => exact h
  | cons look looks ih =>
    obtain ⟨hfirst, hrest⟩ := List.forall_mem_cons.mp hmarked
    rw [List.map_cons, List.getLast?_cons, Option.getD_some]
    exact ih (h.look hfirst look.1).1 hrest

/-- Whatever is missed, the entries that are told are some of the notices. -/
theorem Knows.told_sublist (h : l.Knows a) (hmarked : AllMarked looks)
    (hchain : (a :: looks.map Prod.snd).IsChain Sight.Continues)
    (htold : l.told.Sublist a.noticed) :
    (l.after looks).told.Sublist ((looks.map Prod.snd).getLast?.getD a).noticed := by
  -- along the looks, with the sight that was seen last
  induction looks generalizing l a with
  | nil => exact htold
  | cons look looks ih =>
    obtain ⟨hfirst, hrest⟩ := List.forall_mem_cons.mp hmarked
    obtain ⟨hcontinues, hchain'⟩ := List.isChain_cons_cons.mp hchain
    obtain ⟨hknows, hsaid⟩ := h.look hfirst look.1
    obtain ⟨missed, hnoticed⟩ := hcontinues.exists_missed
    rw [List.map_cons, List.getLast?_cons, Option.getD_some]
    refine ih hknows hrest hchain' ?_
    rw [hsaid, hnoticed]
    exact (htold.trans (List.sublist_append_left _ _)).append (List.Sublist.refl _)

/-- Where no notice is missed, all of them are told. -/
theorem Knows.told_eq (h : l.Knows a) (hmarked : AllMarked looks)
    (hchain : (a :: looks.map Prod.snd).IsChain fun a b => b.noticed = a.noticed ++ a.additions b)
    (htold : l.told = a.noticed) :
    (l.after looks).told = ((looks.map Prod.snd).getLast?.getD a).noticed := by
  induction looks generalizing l a with
  | nil => exact htold
  | cons look looks ih =>
    obtain ⟨hfirst, hrest⟩ := List.forall_mem_cons.mp hmarked
    obtain ⟨hnoticed, hchain'⟩ := List.isChain_cons_cons.mp hchain
    obtain ⟨hknows, hsaid⟩ := h.look hfirst look.1
    rw [List.map_cons, List.getLast?_cons, Option.getD_some]
    refine ih hknows hrest hchain' ?_
    rw [hsaid, hnoticed, htold]

open Scheduler

/-- **Notices are told once.** A scheduler runs from a new scene, and no generation is answered
twice. An observer that has seen nothing yet looks at some of the scenes that are published, on
machines that others may have changed in between. What it prints for scenes that it knows already
are the lines of some of the notices that were appended, in their order and none of them twice;
so no entry of an answer is among them. If it sees every scene that is published, it prints every
notice, however logs were cleared or replaced, and generations and views changed, in between. -/
theorem notices_told_once (source : Source) (pane : Pane) (debounce : Nat) (turns : List Turn)
    (o : Observer) (looks : List (Machine × Sight))
    (hanswers : (((Run.start (.new source pane) debounce).after turns).answers.map
      RenderResult.generation).Nodup)
    (hseen : o.seen = (0, .idle)) (hseenLog : o.seenLog = 0)
    (hlooks : (looks.map Prod.snd).Sublist
      ((Chronicle.start source pane debounce).after turns).shown) :
    let c := (Chronicle.start source pane debounce).after turns
    let l := Listener.after { observer := o } looks
    c.run = (Run.start (.new source pane) debounce).after turns ∧
      c.shown.map Sight.scene = c.run.published ∧
      (∀ s ∈ c.shown, s.log.map Marked.diagnostic = s.scene.log) ∧
      l.printed = String.join (l.told.map Marked.line) ∧
      l.told.Sublist c.run.numbered ∧ l.told.Nodup ∧
      (looks.map Prod.snd = c.shown → l.told = c.run.numbered) := by
  intro c l
  have hsound := Chronicle.sound_after source pane debounce turns hanswers
  have hmarks : ∀ s ∈ c.shown, s.log.map Marked.diagnostic = s.scene.log :=
    fun s hs => hsound.log s (List.mem_cons_of_mem _ hs)
  have hmarked : AllMarked looks := fun s hs => hmarks s (hlooks.subset hs)
  have hbegin : Knows { observer := o } ⟨.new source pane, [], []⟩ := ⟨hseen, hseenLog, rfl⟩
  have hsome : l.told.Sublist c.run.numbered := by
    have hchain := (hsound.ordered.sublist (hlooks.cons_cons _)).isChain
    refine (hbegin.told_sublist hmarked hchain (List.Sublist.refl _)).trans ?_
    have hlast : (looks.map Prod.snd).getLast?.getD ⟨.new source pane, [], []⟩ ∈
        (⟨.new source pane, [], []⟩ : Sight) :: c.shown := by
      refine (hlooks.cons_cons _).subset ?_
      refine List.mem_of_getLast? (l := _ :: looks.map Prod.snd) ?_
      exact List.getLast?_cons
    obtain ⟨more, hmore⟩ := (hsound.continues_now hlast).exists_noticed
    rw [← hsound.noticed, hmore]
    exact List.sublist_append_left _ _
  refine ⟨Chronicle.run_after _ turns, hsound.published, hmarks, (hbegin.after hmarked).printed,
    hsome, hsome.nodup c.run.nodup_numbered, fun hall => ?_⟩
  have hchain : ((⟨.new source pane, [], []⟩ : Sight) :: looks.map Prod.snd).IsChain
      fun a b => b.noticed = a.noticed ++ a.additions b := hall ▸ hsound.chained
  have hlast := hsound.last
  rw [List.getLast?_cons] at hlast
  rw [← hsound.noticed, ← Option.some.inj hlast, ← hall]
  exact hbegin.told_eq hmarked hchain rfl

/-- A machine that holds nothing. -/
private def emptyRoom : Machine where
  tree := ⟨[(["songs"], .directory)]⟩
  workDir := ["songs"]
  home := ⟨"/home"⟩
  tempDir := ⟨"/tmp"⟩
  searchPath := []
  time := 0

/-- An observer that has seen nothing yet. -/
private def attentive : Observer where
  output := ⟨"song.pdf"⟩
  logPath := none
  verbose := false

/-- A notice. -/
private def remark (text : String) : Diagnostic :=
  .unattributed .notice text 0

/-- Notices come before, during and after a rendering that fails with as many entries of its own
as the log held, and after the log was cleared. -/
private def remarked : List Turn :=
  [.event 0 (.notice (remark "watching")),
    .event 10 (.edit ⟨"[C]I heard", {}, .unsaved "Untitled-1"⟩), .timer 400,
    .event 500 (.notice (remark "saved")),
    .answer ⟨1, .failed (some 1), [.unattributed .error "bad chord" 0, remark "saved"]⟩,
    .event 600 (.notice (remark "saved")), .event 700 .clearLog, .event 800 (.setPane .previewOnly),
    .event 900 (.notice (remark "reloaded")), .event 950 .refresh, .timer 1400]

/-- The marked scenes of this run. -/
private def remarkedShown : List Sight :=
  ((Chronicle.start (.unsaved "Untitled-1") .editorAndPreview 300).after remarked).shown

/-- An observer of every scene prints all four notices and no entry of the failure, although one of
these reads like a notice. One that misses the cleared log and the next view misses the last
notice. -/
theorem four_notices_told :
    let r := (Run.start (.new (.unsaved "Untitled-1") .editorAndPreview) 300).after remarked
    let all := remarkedShown.map fun s => (emptyRoom, s)
    let fewer := ((remarkedShown.eraseIdx 5).eraseIdx 5).map fun s => (emptyRoom, s)
    (r.answers.map RenderResult.generation).Nodup ∧
      r.published.length = 9 ∧
      (Listener.after { observer := attentive } all).printed =
        String.join ([remark "watching", remark "saved", remark "saved", remark "reloaded"].map
          Terminal.diagnosticLine) ∧
      (Listener.after { observer := attentive } fewer).told.map Marked.diagnostic =
        [remark "watching", remark "saved", remark "saved"] ∧
      (Listener.after { observer := attentive } fewer).told.Nodup := by
  intro r all fewer
  have hanswers : (r.answers.map RenderResult.generation).Nodup := by decide +kernel
  have hall : all.map Prod.snd = remarkedShown := by
    simp only [all, List.map_map, Function.comp_def, List.map_id']
  have hfewer : (fewer.map Prod.snd).Sublist remarkedShown := by
    simp only [fewer, List.map_map, Function.comp_def, List.map_id']
    exact (List.eraseIdx_sublist _ 5).trans (List.eraseIdx_sublist _ 5)
  obtain ⟨hrun, -, -, hprinted, -, -, htold⟩ := notices_told_once (.unsaved "Untitled-1")
    .editorAndPreview 300 remarked attentive all hanswers rfl rfl
    (hall ▸ List.Sublist.refl remarkedShown)
  obtain ⟨-, -, -, -, -, honce, -⟩ := notices_told_once (.unsaved "Untitled-1")
    .editorAndPreview 300 remarked attentive fewer hanswers rfl rfl hfewer
  refine ⟨hanswers, by decide +kernel, ?_, by decide +kernel, honce⟩
  rw [hprinted, htold hall, hrun]
  rfl

end Listener

end SongPreview
