import SongPreview.Proofs.Fingerprints
import SongPreview.Proofs.Scheduler.Standing

/-!
# What is on show when nothing is left to do

A scheduler is at rest with a document when nothing waits and no rendering goes on. The
latest document was then the last to be accepted, and it is settled how its generation
stands. As far as the digest tells the documents of the run apart, the scene is therefore
that of the latest document in the view on show, whatever happened before.
-/

namespace SongPreview.Scheduler.Run

variable {r : Run} {t : Turn}

/-- Every document that the scheduler knows of was told. -/
structure Told (r : Run) : Prop where
  latest : ∀ document, r.scheduler.latest = some document → document ∈ r.documents
  handed : ∀ request ∈ r.handed, request.document ∈ r.documents

theorem told_start (scene : Scene) (debounce : Nat) : (start scene debounce).Told where
  latest _ h := nomatch h
  handed := nofun

/-- A turn brings at most one document, which becomes the latest; what is handed over is the
latest document. -/
theorem Told.take (h : r.Told) (hrunning : r.running = true) (hcurrent : r.scheduler.Current)
    (t : Turn) : (r.take t).Told := by
  have hmem : ∀ document ∈ r.documents, document ∈ (r.take t).documents := by
    intro document hdocument
    rw [documents_take hrunning]
    exact List.mem_append_left _ hdocument
  constructor
  · intro document hlatest
    rw [take_of_running hrunning, latest_turn, Option.or_eq_some_iff] at hlatest
    rcases hlatest with hnew | ⟨_, hbefore⟩
    · rw [documents_take hrunning, List.mem_append, Option.mem_toList]
      exact Or.inr hnew
    · exact hmem document (h.latest document hbefore)
  · intro request hrequest
    rw [handed_take hrunning, List.mem_append] at hrequest
    rcases hrequest with hbefore | hnew
    · exact hmem request.document (h.handed request hbefore)
    · obtain ⟨effect, heffect, hstart⟩ := List.mem_filterMap.mp hnew
      cases effect with
      | start started =>
        cases hstart
        obtain ⟨p, hpending, _, rfl, _⟩ := request_of_turn heffect
        obtain ⟨document, hlatest, rfl⟩ := hcurrent.eq_of_pending hpending
        exact hmem document (h.latest document hlatest)
      | _ => cases hstart

/-- A scheduler of a reached run knows only of documents that were told. -/
theorem Reachable.told (h : r.Reachable) (hrunning : r.running = true) : r.Told := by
  refine h.invariant hrunning told_start ?_
  intro r t hr _ hcurrent htold
  exact htold.take hr hcurrent t

/-- Equal fingerprints of told documents name equal texts, arguments and views. -/
theorem eq_of_fingerprint_eq_of_told {document document' : Document} {pane pane' : Pane}
    (hfree : Digest.CollisionFree (r.documents.flatMap Document.digested))
    (haddressable : ∀ document ∈ r.documents, document.Addressable)
    (hd : document ∈ r.documents) (hd' : document' ∈ r.documents)
    (h : document.fingerprint pane = document'.fingerprint pane') :
    document.text = document'.text ∧
      document.settings.arguments = document'.settings.arguments ∧ pane = pane' :=
  Document.eq_of_fingerprint_eq hfree
    (fun _ hbytes => List.mem_flatMap.mpr ⟨document, hd, hbytes⟩)
    (fun _ hbytes => List.mem_flatMap.mpr ⟨document', hd', hbytes⟩)
    (haddressable document hd) (haddressable document' hd') h

/-- At rest the latest document, in the view on show, was the last to be accepted. -/
theorem accepted_of_rest {document : Document} (hcurrent : r.scheduler.Current)
    (hlatest : r.scheduler.latest = some document)
    (hpending : r.scheduler.debouncer.pending = none) :
    r.scheduler.accepted = some (document.fingerprint r.scheduler.scene.pane) := by
  rcases hcurrent.latest document hlatest with hwaits | ⟨_, haccepted⟩
  · rw [hpending] at hwaits
    cases hwaits
  · exact haccepted

/-- **Rest.** The renderer keeps its promise in a run, and the digest tells the documents of
the run apart. Whenever there is a document, nothing waits and no rendering goes on, the
scene is settled. In a view with a preview it shows the one answer to the one request of
its generation, a page or a failure without a page, and that request has the text and the
arguments of the latest document and the view on show. In a view without a preview it is
idle, and its generation, the last to be given out, was parked and never handed over. -/
theorem scene_of_rest {document : Document} (hr : r.Faithful) (hrunning : r.running = true)
    (hfree : Digest.CollisionFree (r.documents.flatMap Document.digested))
    (haddressable : ∀ document ∈ r.documents, document.Addressable)
    (hlatest : r.scheduler.latest = some document)
    (hpending : r.scheduler.debouncer.pending = none) (hflight : r.scheduler.inFlight = none) :
    (r.scheduler.scene.pane ≠ .editorOnly →
      ∃ request result, r.RequestOf r.scheduler.scene.generation request ∧
        r.AnswerOf r.scheduler.scene.generation result ∧
        request.document.text = document.text ∧
        request.document.settings.arguments = document.settings.arguments ∧
        request.pane = r.scheduler.scene.pane ∧
        ((∃ artifact, result.outcome = .success artifact ∧
            r.scheduler.scene.status = .succeeded ∧ r.scheduler.scene.artifact = some artifact) ∨
          ∃ code, result.outcome = .failed code ∧
            r.scheduler.scene.status = .failed ∧ r.scheduler.scene.artifact = none)) ∧
    (r.scheduler.scene.pane = .editorOnly →
      r.scheduler.scene.status = .idle ∧
        r.givenOut.getLast? = some r.scheduler.scene.generation ∧
        .remark (.needsNoPreview r.scheduler.scene.generation) ∈ r.effects ∧
        ∀ request ∈ r.handed, request.generation ≠ r.scheduler.scene.generation) := by
  have horderly := hr.orderly hrunning
  have htold := hr.reachable.told hrunning
  have haccepted := accepted_of_rest (hr.reachable.current hrunning) hlatest hpending
  rw [horderly.sceneGeneration]
  cases horderly.stands with
  | untouched hnothing _ _ =>
    rw [hnothing] at haccepted
    cases haccepted
  | rendering _ _ hrendering _ _ _ =>
    rw [hflight] at hrendering
    cases hrendering
  | parked parked pane hparked hhidden _ hstatus hhanded =>
    have hfingerprint := Option.some.inj (hparked.symm.trans haccepted)
    have hpane : pane = r.scheduler.scene.pane := (Fingerprint.mk.inj hfingerprint).2.2
    rw [Pane.showsPreview_eq_false, hpane] at hhidden
    refine ⟨fun hshows => absurd hhidden hshows, fun _ => ?_⟩
    have hlast := horderly.givenOut (by rw [haccepted]; exact Option.some_ne_none _)
    refine ⟨hstatus, hlast, ?_, hhanded⟩
    rcases handed_or_parked_of_givenOut (List.mem_of_getLast? hlast) with
      ⟨request, hrequest, heq⟩ | hremark
    · exact absurd heq (hhanded request hrequest)
    · exact hremark
  | answered request result hrequested _ hanswer hshows =>
    have hfingerprint := Option.some.inj (hrequested.accepted.symm.trans haccepted)
    obtain ⟨hhanded, _⟩ := (hrequested.unique request).mpr rfl
    obtain ⟨htext, harguments, hpane⟩ := eq_of_fingerprint_eq_of_told hfree haddressable
      (htold.handed request hhanded) (htold.latest document hlatest) hfingerprint
    constructor
    · intro _
      refine ⟨request, result, hrequested.unique, hanswer, htext, harguments, hpane, ?_⟩
      cases houtcome : result.outcome with
      | success artifact =>
        rw [houtcome] at hshows
        exact Or.inl ⟨artifact, rfl, hshows⟩
      | failed code =>
        rw [houtcome] at hshows
        exact Or.inr ⟨code, rfl, hshows⟩
      | cancelled =>
        rw [houtcome] at hshows
        exact hshows.elim
    · intro hhidden
      have hview := hrequested.shows
      rw [hpane, hhidden] at hview
      cases hview

/-- A song that is changed and shown in another view while its first rendering goes on. The
answer to the cancelled request comes before the one that counts. -/
private def changedWhileRendering : Run :=
  (Run.start (.new (.unsaved "Untitled-1") .editorAndPreview) 300).after
    [.event 0 (.edit ⟨"[C]I heard", {}, .unsaved "Untitled-1"⟩), .timer 300,
      .event 400 (.edit ⟨"[F]I heard", {}, .unsaved "Untitled-1"⟩),
      .event 500 (.setPane .previewOnly), .timer 800,
      .answer ⟨1, .success "the first page".toUTF8, []⟩,
      .answer ⟨2, .success "the second page".toUTF8, []⟩]

/-- An answer that comes although it was cancelled is not on show at rest. -/
theorem second_page_of_rest :
    changedWhileRendering.Faithful ∧ changedWhileRendering.running = true ∧
      Digest.CollisionFree (changedWhileRendering.documents.flatMap Document.digested) ∧
      (∀ document ∈ changedWhileRendering.documents, document.Addressable) ∧
      changedWhileRendering.scheduler.latest =
        some ⟨"[F]I heard", {}, .unsaved "Untitled-1"⟩ ∧
      changedWhileRendering.scheduler.debouncer.pending = none ∧
      changedWhileRendering.scheduler.inFlight = none ∧
      changedWhileRendering.scheduler.scene.status = .succeeded ∧
      changedWhileRendering.scheduler.scene.artifact = some "the second page".toUTF8 ∧
      ∃ request, changedWhileRendering.RequestOf 2 request ∧
        request.document.text = "[F]I heard" ∧ request.pane = .previewOnly := by
  have hfaithful : changedWhileRendering.Faithful := ⟨_, _, _, by decide +kernel, rfl⟩
  have hfree :
      Digest.CollisionFree (changedWhileRendering.documents.flatMap Document.digested) := by
    decide +kernel
  have haddressable : ∀ document ∈ changedWhileRendering.documents, document.Addressable := by
    decide +kernel
  obtain ⟨hrunning, hlatest, hpending, hflight⟩ :
      changedWhileRendering.running = true ∧
        changedWhileRendering.scheduler.latest =
          some ⟨"[F]I heard", {}, .unsaved "Untitled-1"⟩ ∧
        changedWhileRendering.scheduler.debouncer.pending = none ∧
        changedWhileRendering.scheduler.inFlight = none := by decide +kernel
  obtain ⟨hgeneration, hview, hstatus, hartifact⟩ :
      changedWhileRendering.scheduler.scene.generation = 2 ∧
        changedWhileRendering.scheduler.scene.pane = .previewOnly ∧
        changedWhileRendering.scheduler.scene.status = .succeeded ∧
        changedWhileRendering.scheduler.scene.artifact = some "the second page".toUTF8 := by
    decide +kernel
  obtain ⟨hscene, _⟩ :=
    scene_of_rest hfaithful hrunning hfree haddressable hlatest hpending hflight
  rw [hgeneration, hview] at hscene
  obtain ⟨request, _, hrequest, _, htext, _, hpane, _⟩ := hscene (by decide)
  exact ⟨hfaithful, hrunning, hfree, haddressable, hlatest, hpending, hflight, hstatus, hartifact,
    request, hrequest, htext, hpane⟩

end SongPreview.Scheduler.Run
