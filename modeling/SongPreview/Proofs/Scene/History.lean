import SongPreview.Proofs.Scheduler.Publishing
import Mathlib.Data.List.Induction

/-!
# A scene is what its history says

Five changes can be made to a scene, in any order and with any generations. This file reads
every part of the scene off the history of changes, without the scenes in between: a part is
what the last change tells that tells anything of it, and the log goes on with the notices
that came after. Only a result of the last acceptance tells anything, so that a change is
judged by the history before it. In a scheduler no change of the scene goes unpublished.
-/

namespace SongPreview

namespace RenderResult

/-- The page that a result brings. -/
def page? (result : RenderResult) : Option ByteArray :=
  match result.outcome with
  | .success artifact => some artifact
  | _ => none

/-- How a scene stands after a result. -/
def status (result : RenderResult) : Status :=
  match result.outcome with
  | .success _ => .succeeded
  | _ => .failed

end RenderResult

namespace Scene

/-- A change that is made to a scene. -/
inductive Change where
  | begin (generation : Nat) (source : Source)
  | park (generation : Nat) (source : Source)
  | result (result : RenderResult)
  | clearLog
  | notice (d : Diagnostic)

/-- The scene with one more change. A result that is not taken over changes nothing. -/
def change (s : Scene) : Change → Scene
  | .begin generation source => s.begin generation source
  | .park generation source => s.park generation source
  | .result result => (s.reconcile? result).getD s
  | .clearLog => s.clearLog
  | .notice d => s.pushNotice d

/-- The scene with some more changes. -/
def after (s : Scene) (history : List Change) : Scene :=
  history.foldl change s

theorem after_concat (s : Scene) (history : List Change) (c : Change) :
    s.after (history ++ [c]) = (s.after history).change c :=
  List.foldl_concat ..

end Scene

/-- The changes of a scene, in order. -/
abbrev History := List Scene.Change

namespace History

open Scene (Change)

variable {α : Type} {told : History → Change → Option α} {first value : α}
  {history later : History} {c : Change} {source : Source} {pane : Pane}

/-! ### What changes tell -/

/-- The generation and the source of an acceptance. -/
def acceptance? : Change → Option (Nat × Source)
  | .begin generation source => some (generation, source)
  | .park generation source => some (generation, source)
  | _ => none

/-- The last acceptance. -/
def accepted? (history : History) : Option (Nat × Source) :=
  (history.filterMap acceptance?).getLast?

/-- The generation that a result has to answer: that of the last acceptance, or zero. -/
def due (history : History) : Nat :=
  (accepted? history).elim 0 Prod.fst

/-- The result that is taken over, if one is: it is due and was not cancelled. -/
def taken? (earlier : History) : Change → Option RenderResult
  | .result result =>
    if result.generation = due earlier ∧ result.outcome ≠ .cancelled then some result else none
  | _ => none

/-- What a change tells of the page: a success brings one, a failure takes it away. -/
def page? (earlier : History) (c : Change) : Option (Option ByteArray) :=
  (taken? earlier c).map RenderResult.page?

/-- What a change tells of the status. -/
def status? (earlier : History) : Change → Option Status
  | .begin .. => some .rendering
  | .park .. => some .idle
  | c => (taken? earlier c).map RenderResult.status

/-- The log that a change begins anew with. -/
def freshLog? (earlier : History) : Change → Option (List Diagnostic)
  | .clearLog => some []
  | c => (taken? earlier c).map RenderResult.log

/-- The notice that a change pushes, if it is one. -/
def notice? : Change → Option Diagnostic
  | .notice d => some d
  | _ => none

/-- What a history tells of some matter in the end: what the last change tells that tells anything
of it, or what was so at first. `later` is what came after that change, or everything. -/
inductive Tells (told : History → Change → Option α) (first : α) (history : History) :
    (value : α) → (later : History) → Prop
  | nothing (hsilent : ∀ earlier c later, history = earlier ++ c :: later → told earlier c = none) :
      Tells told first history first history
  | last {earlier later : History} {c : Change} {value : α}
      (hsplit : history = earlier ++ c :: later) (htold : told earlier c = some value)
      (hsilent : ∀ between next rest, later = between ++ next :: rest →
        told (earlier ++ c :: between) next = none) :
      Tells told first history value later

/-- In the beginning nothing was told. -/
theorem Tells.nil : Tells told first [] first [] :=
  .nothing fun earlier c later h => by simp at h

/-- The latest change counts, if it tells anything. -/
theorem Tells.of_told (h : told history c = some value) :
    Tells told first (history ++ [c]) value [] :=
  .last rfl h fun between next rest h => by simp at h

/-- A change that tells nothing leaves what was told before. -/
theorem Tells.of_silent (h : Tells told first history value later)
    (hsilent : told history c = none) :
    Tells told first (history ++ [c]) value (later ++ [c]) := by
  cases h with
  | nothing hbefore =>
    refine .nothing fun earlier change rest hsplit => ?_
    rcases split_concat hsplit with ⟨rfl, rfl, rfl⟩ | ⟨rest', rfl, hsplit'⟩
    · exact hsilent
    · exact hbefore _ _ _ hsplit'
  | @last earlier _ told _ hsplit htold hbetween =>
    refine .last (by rw [hsplit, List.append_assoc, List.cons_append]) htold ?_
    intro between next rest hrest
    rcases split_concat hrest with ⟨rfl, rfl, rfl⟩ | ⟨rest', rfl, hrest'⟩
    · rwa [← hsplit]
    · exact hbetween _ _ _ hrest'

/-- A part of the scene that every change sets to what it tells, and keeps where it tells nothing,
is what the history tells of it in the end. -/
theorem exists_tells {s : Scene} (part : Scene → α) (hfirst : part s = first)
    (hchange : ∀ history c, part ((s.after history).change c) =
      (told history c).getD (part (s.after history))) (history : History) :
    ∃ later, Tells told first history (part (s.after history)) later := by
  induction history using List.reverseRecOn with
  | nil => exact ⟨[], hfirst ▸ Tells.nil⟩
  | append_singleton history c ih =>
    obtain ⟨later, htells⟩ := ih
    rw [Scene.after_concat, hchange]
    cases htold : told history c with
    | none => exact ⟨_, htells.of_silent htold⟩
    | some value => exact ⟨_, Tells.of_told htold⟩

/-! ### What changes do -/

theorem accepted_concat (history : History) (c : Change) :
    accepted? (history ++ [c]) = (acceptance? c).or (accepted? history) := by
  unfold accepted?
  cases h : acceptance? c with
  | none => simp [h]
  | some acceptance => simp [h]

/-- A result that is taken over brings its page, its log and its status, and no other result
changes anything. -/
theorem change_result {s : Scene} (h : s.generation = due history) (result : RenderResult) :
    s.change (.result result) =
      match taken? history (.result result) with
      | some result =>
        { s with artifact := result.page?, log := result.log, status := result.status }
      | none => s := by
  unfold Scene.change Scene.reconcile? taken?
  rw [h]
  by_cases hdue : result.generation = due history
  · cases houtcome : result.outcome <;>
      simp [hdue, houtcome, RenderResult.page?, RenderResult.status]
  · simp [hdue]

/-- The generation and the source are those of the last acceptance. -/
theorem accepted_after (source : Source) (pane : Pane) (history : History) :
    ((Scene.new source pane).after history).generation = due history ∧
      ((Scene.new source pane).after history).source =
        (accepted? history).elim source Prod.snd := by
  induction history using List.reverseRecOn with
  | nil => exact ⟨rfl, rfl⟩
  | append_singleton history c ih =>
    rw [Scene.after_concat, due, accepted_concat]
    cases c with
    | begin generation source => exact ⟨rfl, rfl⟩
    | park generation source => exact ⟨rfl, rfl⟩
    | result result =>
      rw [change_result ih.1]
      split <;> exact ih
    | clearLog => exact ih
    | notice d => exact ih

/-- The page is what the last result brought that was taken over. -/
theorem page_change (source : Source) (pane : Pane) (history : History) (c : Change) :
    (((Scene.new source pane).after history).change c).artifact =
      (page? history c).getD ((Scene.new source pane).after history).artifact := by
  cases c with
  | result result =>
    rw [change_result (accepted_after source pane history).1, page?]
    cases taken? history (.result result) <;> rfl
  | _ => rfl

/-- The status changes with every acceptance and every result that is taken over. -/
theorem status_change (source : Source) (pane : Pane) (history : History) (c : Change) :
    (((Scene.new source pane).after history).change c).status =
      (status? history c).getD ((Scene.new source pane).after history).status := by
  cases c with
  | result result =>
    rw [change_result (accepted_after source pane history).1]
    simp only [status?]
    cases taken? history (.result result) <;> rfl
  | _ => rfl

/-- The log begins anew, or goes on with a notice. -/
theorem log_change (source : Source) (pane : Pane) (history : History) (c : Change) :
    (((Scene.new source pane).after history).change c).log =
      (freshLog? history c).getD
        (((Scene.new source pane).after history).log ++ (notice? c).toList) := by
  cases c with
  | result result =>
    rw [change_result (accepted_after source pane history).1]
    simp only [freshLog?]
    cases taken? history (.result result) with
    | none => exact (List.append_nil _).symm
    | some result => rfl
  | clearLog => rfl
  | notice d => rfl
  | begin generation source => exact (List.append_nil _).symm
  | park generation source => exact (List.append_nil _).symm

/-- The log is the last one that was begun, with every notice that was pushed since. -/
theorem log_after (source : Source) (pane : Pane) (history : History) :
    ∃ log later, Tells freshLog? [] history log later ∧
      ((Scene.new source pane).after history).log = log ++ later.filterMap notice? := by
  induction history using List.reverseRecOn with
  | nil => exact ⟨[], [], Tells.nil, rfl⟩
  | append_singleton history c ih =>
    obtain ⟨log, later, htells, hlog⟩ := ih
    rw [Scene.after_concat, log_change]
    cases htold : freshLog? history c with
    | none =>
      refine ⟨_, _, htells.of_silent htold, ?_⟩
      rw [Option.getD_none, hlog, List.filterMap_append, List.append_assoc]
      cases h : notice? c <;> simp [h]
    | some fresh => exact ⟨_, _, Tells.of_told htold, (List.append_nil _).symm⟩

theorem pane_after (source : Source) (pane : Pane) (history : History) :
    ((Scene.new source pane).after history).pane = pane := by
  induction history using List.reverseRecOn with
  | nil => rfl
  | append_singleton history c ih =>
    rw [Scene.after_concat]
    cases c with
    | result result =>
      rw [change_result (accepted_after source pane history).1]
      split <;> exact ih
    | _ => exact ih

open Scheduler in
/-- **A scene is what its history tells.** After any changes of a new scene, its generation and
source are those of the last acceptance; the page, the status and the beginning of the log are
what was told of them last, where only a result tells anything that answers the last acceptance
before it and was not cancelled; and the log goes on with the notices that came later. Any other
result changes nothing at all, and nothing changes the view. In a scheduler every turn leaves
the scene or publishes the one that it leaves, so that the last published one is current. -/
theorem told_by_history (source : Source) (pane : Pane) (history : History) :
    (((Scene.new source pane).after history).generation = (accepted? history).elim 0 Prod.fst ∧
      ((Scene.new source pane).after history).source =
        (accepted? history).elim source Prod.snd) ∧
    (∃ later, Tells page? none history ((Scene.new source pane).after history).artifact later) ∧
    (∃ log later, Tells freshLog? [] history log later ∧
      ((Scene.new source pane).after history).log = log ++ later.filterMap notice?) ∧
    (∃ later, Tells status? .idle history ((Scene.new source pane).after history).status later) ∧
    ((Scene.new source pane).after history).pane = pane ∧
    (∀ result : RenderResult,
      result.generation ≠ ((Scene.new source pane).after history).generation ∨
        result.outcome = .cancelled →
      (Scene.new source pane).after (history ++ [.result result]) =
        (Scene.new source pane).after history) ∧
    ∀ (scene : Scene) (debounce : Nat) (turns : List Turn),
      let r := (Run.start scene debounce).after turns
      r.published.getLast?.getD scene = r.scheduler.scene ∧
        ∀ t, ((r.take t).published = r.published ∧
            (r.take t).scheduler.scene = r.scheduler.scene) ∨
          (r.take t).published = r.published ++ [(r.take t).scheduler.scene] := by
  have haccepted := accepted_after source pane history
  refine ⟨haccepted, ?_, log_after source pane history, ?_, pane_after source pane history, ?_, ?_⟩
  · exact exists_tells Scene.artifact rfl (page_change source pane) history
  · exact exists_tells Scene.status rfl (status_change source pane) history
  · intro result hresult
    have hnone : taken? history (.result result) = none := by
      rw [haccepted.1] at hresult
      simp only [taken?]
      exact if_neg fun ⟨hdue, hnot⟩ => hresult.elim (fun hne => hne hdue) hnot
    rw [Scene.after_concat, change_result haccepted.1, hnone]
  · intro scene debounce turns r
    exact ⟨Run.last_published scene debounce turns, Run.published_cases r⟩

/-- A song that is rendered twice. A failure of the first rendering comes late, and the second
rendering fails after the log was cleared. -/
private def failedLater : History :=
  [.begin 1 (.unsaved "Untitled-1"), .result ⟨1, .success "one".toUTF8, []⟩,
    .begin 2 (.file ⟨"song.cho"⟩), .notice (.unattributed .notice "saved" 0),
    .result ⟨1, .failed none, []⟩, .clearLog,
    .result ⟨2, .failed (some 1), [.unattributed .error "bad directive" 0]⟩,
    .notice (.unattributed .notice "reloaded" 0)]

/-- The failure that counts takes the page away and brings its own log, which goes on with the last
notice. A success of the first rendering would change nothing any more. -/
theorem failure_told_by_history :
    let s := (Scene.new (.unsaved "Untitled-1") .previewOnly).after failedLater
    s.generation = 2 ∧ s.source = .file ⟨"song.cho"⟩ ∧ s.artifact = none ∧ s.status = .failed ∧
      s.log = [.unattributed .error "bad directive" 0] ++ [.unattributed .notice "reloaded" 0] ∧
      s.pane = .previewOnly ∧
      (Scene.new (.unsaved "Untitled-1") .previewOnly).after
        (failedLater ++ [.result ⟨1, .success "late".toUTF8, []⟩]) = s := by
  intro s
  obtain ⟨⟨hgeneration, hsource⟩, -, -, -, hpane, hstale, -⟩ :=
    told_by_history (.unsaved "Untitled-1") .previewOnly failedLater
  have hne : (1 : Nat) ≠ s.generation := by decide +kernel
  refine ⟨hgeneration, hsource, ?_, ?_, ?_, hpane, hstale _ (Or.inl hne)⟩
  · decide +kernel
  · decide +kernel
  · decide +kernel

end History

end SongPreview
