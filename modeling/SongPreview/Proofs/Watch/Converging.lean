import SongPreview.Proofs.Scheduler.Telling
import SongPreview.Proofs.Watch.Feeding

/-!
# A changed configuration reaches the scene

When one configuration takes the place of another, the scene is told what differs: the
document with its new settings, then the new view. While it is told, the wait may be
over and the renderer may answer. The latest document and the view only depend on what
was told, and what waits follows them; so in the end the scene stands as the new
configuration asks for, and nothing waits that belongs to both.
-/

namespace SongPreview

namespace Config

/-- The document is told once, unless its settings are the same. -/
theorem documents_changeEvents (old new : Config) (time : Int) (d : Document) :
    (old.changeEvents time new (some d)).filterMap Event.document? =
      if new.render.same old.render then [] else [d.withSettings new.render] := by
  simp only [changeEvents, List.filterMap_append]
  split <;> split <;> split <;> rfl

/-- The view is told once, unless it is the same. -/
theorem panes_changeEvents (old new : Config) (time : Int) (latest : Option Document) :
    (old.changeEvents time new latest).filterMap Event.pane? =
      if new.preview.pane = old.preview.pane then [] else [new.preview.pane] := by
  simp only [changeEvents, List.filterMap_append]
  cases latest <;> split <;> split <;> split <;> rfl

/-- A changed configuration does not end a session. -/
theorem shutdown_not_mem_changeEvents (old new : Config) (time : Int) (latest : Option Document) :
    .shutdown ∉ old.changeEvents time new latest := by
  simp only [changeEvents, List.mem_append]
  cases latest <;> split <;> split <;> split <;> simp

end Config

namespace Scheduler

namespace Run

variable {r : Run} {turns : List Turn}

/-- **A changed configuration reaches the scene.** Whatever waits, goes on or was accepted, if
the latest document has the settings of the old configuration and the view is the old one,
then after the scene was told what differs, in order and with any answers and ends of waits in
between, the latest document is the same text of the same origin with the new settings, and
the view is the new one. This document waits in this view, or nothing waits and this is what
was last accepted; so nothing waits with new settings in the old view, or the reverse. -/
theorem reaches_new_config {old new : Config} {d : Document} {time : Int} (hr : r.Reachable)
    (hrunning : r.running = true) (hlatest : r.scheduler.latest = some d)
    (hsettings : d.settings.same old.render = true)
    (hpane : r.scheduler.scene.pane = old.preview.pane)
    (htold : turns.filterMap Turn.event? = old.changeEvents time new (some d))
    (hstays : .hangUp ∉ turns) :
    (r.after turns).running = true ∧ ∃ document,
      (r.after turns).scheduler.latest = some document ∧
      document.text = d.text ∧ document.source = d.source ∧
      document.settings.same new.render = true ∧
      (new.render.same old.render = false → document.settings = new.render) ∧
      (r.after turns).scheduler.scene.pane = new.preview.pane ∧
      ((r.after turns).scheduler.debouncer.pending =
          some ⟨document, new.preview.pane, document.fingerprint new.preview.pane⟩ ∨
        (r.after turns).scheduler.debouncer.pending = none ∧
          (r.after turns).scheduler.accepted =
            some (document.fingerprint new.preview.pane)) ∧
      ∀ p, (r.after turns).scheduler.debouncer.pending = some p →
        p.document.settings.same new.render = true ∧ p.pane = new.preview.pane := by
  have hgoes : (r.after turns).running = true :=
    running_after hrunning hstays (htold ▸ old.shutdown_not_mem_changeEvents new time (some d))
  have hview : (r.after turns).scheduler.scene.pane = new.preview.pane := by
    rw [view_after hgoes, htold, Config.panes_changeEvents, hpane]
    split
    · next hsame => exact hsame.symm
    · rfl
  obtain ⟨document, hdocument, htext, hsource, hsame, hnew⟩ : ∃ document,
      (r.after turns).scheduler.latest = some document ∧ document.text = d.text ∧
      document.source = d.source ∧ document.settings.same new.render = true ∧
      (new.render.same old.render = false → document.settings = new.render) := by
    rw [latest_after hgoes, htold, Config.documents_changeEvents, hlatest]
    cases hchanged : new.render.same old.render with
    | true =>
      have hsame := Settings.same_trans hsettings (Settings.same_symm hchanged)
      exact ⟨d, rfl, rfl, rfl, hsame, nofun⟩
    | false =>
      exact ⟨d.withSettings new.render, rfl, rfl, rfl, Settings.same_refl _, fun _ => rfl⟩
  have hcurrent := (hr.after turns).current hgoes
  have hwaits := hcurrent.latest document hdocument
  rw [hview] at hwaits
  refine ⟨hgoes, document, hdocument, htext, hsource, hsame, hnew, hview, hwaits, ?_⟩
  intro p hpending
  obtain ⟨latest, hlatest', rfl⟩ := hcurrent.eq_of_pending hpending
  rw [hdocument] at hlatest'
  cases hlatest'
  exact ⟨hsame, hview⟩

/-- A song before and after a line was added. -/
private def firstLine : Document :=
  ⟨"[C]I heard", {}, .unsaved "Untitled-1"⟩

private def twoLines : Document :=
  ⟨"[C]I heard\n[Am]there was", {}, .unsaved "Untitled-1"⟩

/-- A song that is being rendered while its second line waits. -/
private def performed : Run :=
  (start (.new (.unsaved "Untitled-1") .editorAndPreview) 300).after
    [.event 0 (.edit firstLine), .timer 300, .event 400 (.edit twoLines)]

/-- A configuration with other settings, another view and a shorter limit. -/
private def rearranged : Config where
  renderer := { timeout := 1000 }
  render := { transpose := 2 }
  preview := { pane := .previewOnly }

/-- The wait is over after the new settings were told and before the new view is, and the
cancelled rendering answers. -/
private def rearranging : List Turn :=
  [.event 500 (.edit (twoLines.withSettings { transpose := 2 })), .timer 900,
    .event 901 (.setPane .previewOnly), .answer ⟨1, .cancelled, []⟩,
    .event 902 (.notice (Config.restartNotice 0))]

/-- A request for the new settings in the old view was handed over, but what waits in the end is
for the new view. -/
theorem rearranged_song_waits :
    Effect.start ⟨2, twoLines.withSettings { transpose := 2 }, .editorAndPreview⟩ ∈
        (performed.after rearranging).effects ∧
      ∃ document, (performed.after rearranging).scheduler.latest = some document ∧
        document.text = twoLines.text ∧ document.settings = { transpose := 2 } ∧
        (performed.after rearranging).scheduler.scene.pane = .previewOnly ∧
        (performed.after rearranging).scheduler.debouncer.pending =
          some ⟨document, .previewOnly, document.fingerprint .previewOnly⟩ := by
  have hreachable : performed.Reachable := ⟨_, _, _, rfl⟩
  obtain ⟨hrunning, hlatest, hpane⟩ : performed.running = true ∧
      performed.scheduler.latest = some twoLines ∧
      performed.scheduler.scene.pane = .editorAndPreview := by
    decide +kernel
  obtain ⟨hstart, hwaits⟩ :
      Effect.start ⟨2, twoLines.withSettings { transpose := 2 }, .editorAndPreview⟩ ∈
          (performed.after rearranging).effects ∧
        (performed.after rearranging).scheduler.debouncer.pending ≠ none := by
    decide +kernel
  have htold : rearranging.filterMap Turn.event? =
      Config.changeEvents 0 {} rearranged (some twoLines) := by
    decide +kernel
  have hstays : .hangUp ∉ rearranging := by decide +kernel
  obtain ⟨-, document, hdocument, htext, -, -, hnew, hview, hpending, -⟩ :=
    reaches_new_config hreachable hrunning hlatest (Settings.same_refl _) hpane htold hstays
  rcases hpending with hpending | ⟨hnone, -⟩
  · exact ⟨hstart, document, hdocument, htext, hnew (by decide +kernel), hview, hpending⟩
  · exact absurd hnone hwaits

end Run

end Scheduler

end SongPreview
