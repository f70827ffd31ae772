import SongPreview.Rendering
import SongPreview.Proofs.Fingerprints
import SongPreview.Proofs.Machine.Transient
import Mathlib.Data.List.Forall2

/-!
# What the renderer is started with

A renderer is started from the settings and the text of a document, which its fingerprint names,
and from its source, which it does not: the source gives a transient file its ending, and the
renderer the directory that paths in the song start from. So two documents with one fingerprint
are rendered alike if their sources agree in these two, and only then.
-/

namespace SongPreview.Rendering

open Machine (tempName)

variable {config : Config.Renderer} {d e : Document} {m m' : Machine} {mode : InputMode}
  {input : Input} {p q : Pane}

/-! ### The song on its way -/

/-- The path of the transient file of a number. -/
def tempPath (m : Machine) (source : Source) (n : Nat) : Path :=
  m.tempDir.join ⟨tempName ("." ++ source.extension) n⟩

/-- The song of a document where the renderer can read it, and the files with it. -/
inductive Prepared (d : Document) (m : Machine) : InputMode → Input → Machine → Prop
  | stdin : Prepared d m .stdin (.stdin d.text) m
  | file {place : Location} {n : Nat} (free : m.tree.get? place = none)
      (located : m.tree.locate m.workDir (tempPath m d.source n) = .ok place) :
      Prepared d m .file (.file place (tempPath m d.source n))
        (m.withTree (m.tree.put place (.file d.text.toUTF8 false)))

theorem prepared_of_prepare (h : Input.prepare mode d m = (.ok input, m')) :
    Prepared d m mode input m' := by
  cases mode with
  | stdin =>
    obtain ⟨hinput, rfl⟩ := Prod.mk.inj h
    obtain rfl := Except.ok.inj hinput
    exact .stdin
  | file =>
    simp only [Input.prepare] at h
    split at h
    · cases (Prod.mk.inj h).1
    next place temp made hmade =>
      obtain ⟨hfree, ⟨n, rfl⟩, hlocate, rfl⟩ := Machine.makeTemp_ok hmade
      split at h
      next poured hpoured =>
        obtain rfl := Action.pour_ok hpoured
        obtain ⟨hinput, rfl⟩ := Prod.mk.inj h
        obtain rfl := Except.ok.inj hinput
        change Prepared d m .file _ (m.withTree ((m.tree.put place _).put place _))
        rw [Tree.put_put]
        exact .file hfree hlocate
      · cases (Prod.mk.inj h).1

/-- The text and the ending are all that is looked at. -/
theorem prepare_congr (htext : d.text = e.text)
    (hextension : mode = .file → d.source.extension = e.source.extension) :
    Input.prepare mode d m = Input.prepare mode e m := by
  cases mode with
  | stdin => simp only [Input.prepare, htext]
  | file => simp only [Input.prepare, htext, hextension rfl]

/-- A transient file is no directory that a song could stand in. -/
theorem Prepared.workDirFor (h : Prepared d m mode input m') (source : Source) :
    workDirFor m' source = workDirFor m source := by
  cases h with
  | stdin => rfl
  | file free =>
    have hdirectory := funext (Machine.isDirectory_put free d.text.toUTF8)
    simp only [Rendering.workDirFor, hdirectory]

/-- A transient file is no program. -/
theorem Prepared.resolve (h : Prepared d m mode input m') (command : List String) :
    resolve m' command = resolve m command := by
  cases h with
  | stdin => rfl
  | file free =>
    cases command with
    | nil => rfl
    | cons word leading =>
      simp only [Rendering.resolve, Machine.findProgram_put free]

theorem Prepared.text? (h : Prepared d m mode input m') :
    input.text? = if mode = .stdin then some d.text else none := by
  cases h <;> rfl

/-- What the renderer reads as its song. -/
def Input.content (m : Machine) : Input → Except Fault ByteArray
  | .file _ path => m.read path
  | .stdin text => .ok text.toUTF8

/-- The renderer reads the text of the document. -/
theorem Prepared.content (h : Prepared d m mode input m') :
    input.content m' = .ok d.text.toUTF8 := by
  cases h with
  | stdin => rfl
  | file free located => exact Machine.read_put free located _

/-- Two words that differ at most in the letters of a temporary name. -/
def SameWord (dir : Path) (a b : String) : Prop :=
  a = b ∨ ∃ ending n n',
    a = (dir.join ⟨tempName ending n⟩).text ∧ b = (dir.join ⟨tempName ending n'⟩).text

/-- A word for a transient file keeps its ending, whatever its letters are. -/
theorem ending_of_sameWord {dir : Path} {ending ending' : String} {n n' : Nat}
    (h : SameWord dir (dir.join ⟨tempName ending n⟩).text (dir.join ⟨tempName ending' n'⟩).text) :
    ending = ending' := by
  rcases h with heq | ⟨_, _, _, hleft, hright⟩
  · exact Machine.tempPath_ending heq
  · exact (Machine.tempPath_ending hleft).trans (Machine.tempPath_ending hright).symm

theorem Prepared.extension_eq {m₁ m₂ : Machine} {input' : Input} (h : Prepared d m .file input m₁)
    (h' : Prepared e m .file input' m₂)
    (hword : SameWord m.tempDir input.argument input'.argument) :
    d.source.extension = e.source.extension := by
  cases h with
  | file =>
    cases h' with
    | file => exact (String.append_right_inj _).mp (ending_of_sameWord hword)

/-! ### The start -/

/-- A renderer that is ready to be started, with its song and the files. -/
structure Launch where
  input : Input
  invocation : Invocation
  machine : Machine

/-- What is started for a document, or why nothing is, and the files then. -/
def launch (config : Config.Renderer) (d : Document) (m : Machine) :
    Except (RenderFault × Machine) Launch :=
  match Input.prepare config.input d m with
  | (.error fault, m) => .error (fault, m)
  | (.ok input, m) =>
    match resolve m config.command with
    | .error fault => .error (fault, input.discard m)
    | .ok (program, leading) => .ok ⟨input, invocation m d input program leading, m⟩

/-- The answer to a request that was not cancelled before the start. -/
def answer (host : Host) (config : Config.Renderer) (generation : Nat) (cancel : Option Nat)
    (launched : Except (RenderFault × Machine) Launch) : Rendered :=
  let refused (fault : RenderFault) (m : Machine) : Rendered :=
    ⟨failedResult generation fault m.time, [],
      ["generation " ++ toString generation ++ ": " ++ fault.message], m⟩
  match launched with
  | .error (fault, m) => refused fault m
  | .ok l =>
    match host.start l.machine l.invocation with
    | .error fault => refused (.start l.invocation.program fault) (l.input.discard l.machine)
    | .ok started =>
      let run := watch config started.child l.input.argument l.machine.time cancel
      ⟨⟨generation, run.outcome, run.log⟩, run.arrived.map fun d => ⟨generation, d⟩,
        remarks generation started.pid run.outcome (statusOf config started.child cancel),
        l.input.discard (l.machine.withTree run.tree)⟩

/-- A request is answered by what its document starts. -/
theorem render_eq_answer (host : Host) (config : Config.Renderer) (request : Request)
    (cancel : Option Nat) (m : Machine) :
    render host config request cancel m =
      if cancel = some 0 then ⟨⟨request.generation, .cancelled, []⟩, [], [], m⟩
      else answer host config request.generation cancel (launch config request.document m) := by
  rw [render]
  split
  · rfl
  · rw [launch]
    rcases Input.prepare config.input request.document m with ⟨fault | input, after⟩
    · rfl
    · simp only [renderPrepared, bind, Except.bind]
      cases resolve after config.command with
      | error fault => rfl
      | ok found =>
        obtain ⟨program, leading⟩ := found
        simp only [answer]
        cases host.start after (invocation after request.document input program leading) with
        | error fault => rfl
        | ok started => rfl

variable {l l' : Launch}

/-- The program and the directory are those that were there before the transient file. -/
theorem launch_ok (h : launch config d m = .ok l) :
    Prepared d m config.input l.input l.machine ∧
      ∃ program leading, resolve m config.command = .ok (program, leading) ∧
        l.invocation = invocation m d l.input program leading := by
  rw [launch] at h
  split at h
  · cases h
  next input after hprepare =>
    have hprepared := prepared_of_prepare hprepare
    split at h
    · cases h
    next program leading hresolve =>
      obtain rfl := Except.ok.inj h
      rw [hprepared.resolve] at hresolve
      refine ⟨hprepared, program, leading, hresolve, ?_⟩
      simp only [invocation, hprepared.workDirFor]

/-- Every document is rendered by the program of the configuration. -/
theorem launches_ok (hl : launch config d m = .ok l) (hl' : launch config e m = .ok l') :
    ∃ program leading, l.invocation = invocation m d l.input program leading ∧
      l'.invocation = invocation m e l'.input program leading := by
  obtain ⟨-, program, leading, hresolve, hinvocation⟩ := launch_ok hl
  obtain ⟨-, program', leading', hresolve', hinvocation'⟩ := launch_ok hl'
  obtain ⟨rfl, rfl⟩ := Prod.mk.inj (Except.ok.inj (hresolve.symm.trans hresolve'))
  exact ⟨program, leading, hinvocation, hinvocation'⟩

/-! ### Equal starts -/

/-- Two starts of a renderer that differ at most in the letters of a temporary name. -/
structure SameStart (dir : Path) (a b : Launch) : Prop where
  program : a.invocation.program = b.invocation.program
  name : a.invocation.name = b.invocation.name
  arguments : List.Forall₂ (SameWord dir) a.invocation.arguments b.invocation.arguments
  input : a.invocation.input = b.invocation.input
  content : a.input.content a.machine = b.input.content b.machine
  workDir : a.invocation.workDir = b.invocation.workDir

theorem SameStart.refl (dir : Path) (a : Launch) : SameStart dir a a :=
  ⟨rfl, rfl, List.forall₂_same.mpr fun _ _ => .inl rfl, rfl, rfl, rfl⟩

/-- What a renderer is started with beside the text and the settings is the same for two
sources: the ending of a transient file, and the directory that it works in. -/
structure SameOrigin (config : Config.Renderer) (m : Machine) (a b : Source) : Prop where
  extension : config.input = .file → a.extension = b.extension
  workDir : workDirFor m a = workDirFor m b

theorem launch_congr (htext : d.text = e.text)
    (harguments : d.settings.arguments = e.settings.arguments)
    (horigin : SameOrigin config m d.source e.source) : launch config d m = launch config e m := by
  rw [launch, launch, prepare_congr htext horigin.extension]
  split
  · rfl
  next input after hprepare =>
    have hprepared := prepared_of_prepare hprepare
    have hinvocation (program : Path) (leading : List String) :
        invocation after d input program leading = invocation after e input program leading := by
      simp only [invocation, Settings.renderArguments, harguments, hprepared.workDirFor,
        horigin.workDir]
    simp only [hinvocation]

/-- The last words of two lists that agree word by word. -/
theorem sameWord_last {dir : Path} {front : List String} {a b : String}
    (h : List.Forall₂ (SameWord dir) (front ++ [a]) (front ++ [b])) : SameWord dir a b := by
  have hdrop := List.forall₂_drop_append _ _ _ h
  rw [List.drop_left] at hdrop
  cases hdrop with
  | cons hword _ => exact hword

/-- A start that agrees with another one has a source that agrees. -/
theorem sameOrigin_of_sameStart (harguments : d.settings.arguments = e.settings.arguments)
    (hl : launch config d m = .ok l) (hl' : launch config e m = .ok l')
    (h : SameStart m.tempDir l l') : SameOrigin config m d.source e.source := by
  obtain ⟨program, leading, hinvocation, hinvocation'⟩ := launches_ok hl hl'
  have hprepared := (launch_ok hl).1
  have hprepared' := (launch_ok hl').1
  constructor
  · intro hmode
    have hlast := h.arguments
    rw [hinvocation, hinvocation'] at hlast
    simp only [invocation, Settings.renderArguments, harguments, ← List.append_assoc] at hlast
    rw [hmode] at hprepared hprepared'
    exact hprepared.extension_eq hprepared' (sameWord_last hlast)
  · have hworkDir := h.workDir
    rw [hinvocation, hinvocation'] at hworkDir
    exact hworkDir

/-- Whatever the sources are, one program reads one song, with the same arguments in front of it. -/
theorem launch_of_same (htext : d.text = e.text)
    (harguments : d.settings.arguments = e.settings.arguments)
    (hl : launch config d m = .ok l) (hl' : launch config e m = .ok l') :
    l.invocation.program = l'.invocation.program ∧ l.invocation.name = l'.invocation.name ∧
      l.invocation.arguments.dropLast = l'.invocation.arguments.dropLast ∧
      l.invocation.input = l'.invocation.input ∧
      l.input.content l.machine = .ok d.text.toUTF8 ∧
      l'.input.content l'.machine = .ok d.text.toUTF8 := by
  obtain ⟨program, leading, hinvocation, hinvocation'⟩ := launches_ok hl hl'
  have hprepared := (launch_ok hl).1
  have hprepared' := (launch_ok hl').1
  rw [hinvocation, hinvocation']
  refine ⟨rfl, rfl, ?_, ?_, hprepared.content, htext ▸ hprepared'.content⟩
  · simp only [invocation, Settings.renderArguments, harguments, ← List.append_assoc,
      List.dropLast_concat]
  · simp only [invocation, hprepared.text?, hprepared'.text?, htext]

/-- **What equal fingerprints promise of the start.** For two documents with one fingerprint the
same program reads the same song, with the same arguments in front of it. The rest comes from the
sources: the second document starts what the first one starts, up to the letters of a temporary
name, if and only if its source gives a transient file the same ending and the renderer the same
directory to work in. Then, with the same letters, every host answers both requests alike. -/
theorem sameStart_iff_sameOrigin (config : Config.Renderer) (m : Machine)
    (hfree : Digest.CollisionFree (d.digested ++ e.digested)) (hd : d.Addressable)
    (he : e.Addressable) (hfingerprint : d.fingerprint p = e.fingerprint q) :
    (∀ l, launch config d m = .ok l →
      ((∃ l', launch config e m = .ok l' ∧ SameStart m.tempDir l l') ↔
        SameOrigin config m d.source e.source) ∧
      ∀ l', launch config e m = .ok l' →
        l.invocation.program = l'.invocation.program ∧ l.invocation.name = l'.invocation.name ∧
        l.invocation.arguments.dropLast = l'.invocation.arguments.dropLast ∧
        l.invocation.input = l'.invocation.input ∧
        l.input.content l.machine = .ok d.text.toUTF8 ∧
        l'.input.content l'.machine = .ok d.text.toUTF8) ∧
    (SameOrigin config m d.source e.source → ∀ host generation cancel,
      render host config ⟨generation, d, p⟩ cancel m =
        render host config ⟨generation, e, q⟩ cancel m) := by
  obtain ⟨htext, harguments, -⟩ := Document.eq_of_fingerprint_eq hfree
    (fun _ => List.mem_append_left _) (fun _ => List.mem_append_right _) hd he hfingerprint
  refine ⟨fun l hl => ⟨⟨?_, fun horigin => ?_⟩, fun l' => launch_of_same htext harguments hl⟩, ?_⟩
  · rintro ⟨l', hl', hsame⟩
    exact sameOrigin_of_sameStart harguments hl hl' hsame
  · exact ⟨l, launch_congr htext harguments horigin ▸ hl, SameStart.refl _ l⟩
  · intro horigin host generation cancel
    rw [render_eq_answer, render_eq_answer, launch_congr htext harguments horigin]

/-- A machine with two directories of songs and a renderer. -/
private def musicRoom : Machine where
  tree := ⟨[(["songs"], .directory), (["hymns"], .directory), (["tmp"], .directory),
    (["bin"], .directory), (["chordpro", "bin"], .tool "chordpro")]⟩
  workDir := ["songs"]
  home := ⟨"/home"⟩
  tempDir := ⟨"/tmp"⟩
  searchPath := [⟨"/bin"⟩]
  time := 0

/-- A song from a file. -/
private def songFrom (path : String) : Document :=
  ⟨"[C]I heard", {}, .file ⟨path⟩⟩

/-- Where a song is kept makes no difference to what is digested. -/
private theorem collisionFree_songFrom (a b : String) :
    Digest.CollisionFree ((songFrom a).digested ++ (songFrom b).digested) := by
  have hfree : Digest.CollisionFree (songFrom "").digested := by decide +kernel
  have hmem {bytes : ByteArray} (h : bytes ∈ (songFrom a).digested ++ (songFrom b).digested) :
      bytes ∈ (songFrom "").digested := (List.mem_append.mp h).elim id id
  exact fun bytes h bytes' h' => hfree bytes (hmem h) bytes' (hmem h')

/-- A song that is kept under another name in the same directory is rendered as it was. -/
theorem renamed_song_rendered_alike :
    let d := songFrom "/songs/first.cho"
    let e := songFrom "/songs/second.cho"
    (Digest.CollisionFree (d.digested ++ e.digested) ∧ d.Addressable ∧ e.Addressable ∧
        d.fingerprint .previewOnly = e.fingerprint .previewOnly) ∧
      (∃ l l', launch {} d musicRoom = .ok l ∧ launch {} e musicRoom = .ok l' ∧
        SameStart musicRoom.tempDir l l') ∧
      ∀ host generation cancel,
        render host {} ⟨generation, d, .previewOnly⟩ cancel musicRoom =
          render host {} ⟨generation, e, .previewOnly⟩ cancel musicRoom := by
  intro d e
  have hfree : Digest.CollisionFree (d.digested ++ e.digested) := collisionFree_songFrom _ _
  have hd : d.Addressable := by decide +kernel
  have he : e.Addressable := by decide +kernel
  have horigin : SameOrigin {} musicRoom d.source e.source :=
    ⟨by decide +kernel, by decide +kernel⟩
  obtain ⟨hstart, hrender⟩ := sameStart_iff_sameOrigin {} musicRoom hfree hd he
    (show d.fingerprint .previewOnly = e.fingerprint .previewOnly from rfl)
  obtain ⟨l, hl⟩ := isOk_iff.mp (show (launch {} d musicRoom).isOk = true by decide +kernel)
  obtain ⟨l', hl', hsame⟩ := (hstart l hl).1.mpr horigin
  exact ⟨⟨hfree, hd, he, rfl⟩, ⟨l, l', hl, hl', hsame⟩, hrender horigin⟩

/-- Equal fingerprints do not always start the renderer alike: one that was moved is read from a
file with another ending, by a renderer that works in another directory. -/
theorem moved_song_started_elsewhere :
    ¬ ∀ (config : Config.Renderer) (d e : Document) (p q : Pane) (m : Machine) (l l' : Launch),
      Digest.CollisionFree (d.digested ++ e.digested) → d.Addressable → e.Addressable →
      d.fingerprint p = e.fingerprint q → launch config d m = .ok l →
      launch config e m = .ok l' → SameStart m.tempDir l l' := by
  intro h
  have harguments : (songFrom "/songs/a.cho").settings.arguments =
      (songFrom "/hymns/a.chopro").settings.arguments := rfl
  have hfingerprint : (songFrom "/songs/a.cho").fingerprint .previewOnly =
      (songFrom "/hymns/a.chopro").fingerprint .previewOnly := rfl
  have hdirs : workDirFor musicRoom (songFrom "/songs/a.cho").source ≠
      workDirFor musicRoom (songFrom "/hymns/a.chopro").source := by decide +kernel
  obtain ⟨l, hl⟩ := isOk_iff.mp
    (show (launch {} (songFrom "/songs/a.cho") musicRoom).isOk = true by decide +kernel)
  obtain ⟨l', hl'⟩ := isOk_iff.mp
    (show (launch {} (songFrom "/hymns/a.chopro") musicRoom).isOk = true by decide +kernel)
  have hsame : SameStart musicRoom.tempDir l l' :=
    h {} _ _ _ _ musicRoom l l' (collisionFree_songFrom _ _) (by decide +kernel)
      (by decide +kernel) hfingerprint hl hl'
  exact hdirs (sameOrigin_of_sameStart harguments hl hl' hsame).workDir

end SongPreview.Rendering
