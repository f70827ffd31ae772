import SongPreview.Proofs.Rendering.Outcomes

/-!
# What a rendering leaves behind

A renderer is given the song as a transient file or as text, and nothing of the file is left when
the request has its answer: where no renderer was started, all files are as they were; where one
was, they are as it left them, without the transient file. The name of the file in the arguments is
the name that the log is read with.
-/

namespace SongPreview.Rendering

variable {config : Config.Renderer} {d : Document} {m m' : Machine} {mode : InputMode}
  {cancel : Option Nat} {child : Child} {source : String} {time : Int} {input : Input}
  {generation : Nat} {host : Host} {l : Launch} {place q : Location}

/-! ### The transient file -/

/-- A song that was not used is taken away without a trace. -/
theorem Prepared.discard (h : Prepared d m mode input m') : input.discard m' = m := by
  cases h with
  | stdin => rfl
  | file free => exact Machine.remove_put free _ _

/-- A song that cannot be put where the renderer reads it leaves nothing. -/
theorem machine_of_prepare_error {fault : RenderFault}
    (h : Input.prepare mode d m = (.error fault, m')) : m' = m := by
  cases mode with
  | stdin => cases (Prod.mk.inj h).1
  | file =>
    simp only [Input.prepare] at h
    split at h
    · exact (Prod.mk.inj h).2.symm
    next place temp made hmade =>
      obtain ⟨hfree, -, -, rfl⟩ := Machine.makeTemp_ok hmade
      obtain ⟨kept, hkept⟩ := Action.pour_file place false d.text.toUTF8 m
      split at h
      · cases (Prod.mk.inj h).1
      next fault poured hpoured =>
        rw [hpoured] at hkept
        obtain rfl := hkept
        exact (Prod.mk.inj h).2.symm.trans (Machine.remove_put hfree kept false)

/-- Where nothing is ready to be started, nothing has changed. -/
theorem machine_of_launch_error {fault : RenderFault}
    (h : launch config d m = .error (fault, m')) : m' = m := by
  rcases hprepare : Input.prepare config.input d m with ⟨fault' | input, after⟩
  · rw [launch, hprepare] at h
    cases h
    exact machine_of_prepare_error hprepare
  · rw [launch_of_prepare hprepare] at h
    split at h
    · cases h
      exact (prepared_of_prepare hprepare).discard
    · cases h

/-- The path of a file in an absolute directory leads to it from everywhere. -/
theorem read_from {p : Path} (hp : p.isAbsolute = true) (workDir : Location) :
    { m with workDir }.read p = m.read p := by
  have hlocate : m.tree.locate workDir p = m.tree.locate m.workDir p := by
    simp only [Tree.locate, Tree.start, if_pos hp]
  simp only [Machine.read, Machine.find, hlocate]

theorem isAbsolute_tempPath (h : m.tempDir.isAbsolute = true) (source : Source) (n : Nat) :
    (tempPath m source n).isAbsolute = true := by
  have hhead : m.tempDir.text.toList.head? = some '/' := by simpa [Path.isAbsolute] using h
  rw [tempPath, Path.join_of_not_isAbsolute (Machine.isAbsolute_tempName _ _)]
  simp [Path.isAbsolute, hhead]

/-! ### What the renderer is given and leaves -/

/-- What a renderer is given of a song: under which name, what it finds on its standard input, where
the transient file is if there is one, and the files. -/
inductive Given (d : Document) (m : Machine) :
    InputMode → String → Option String → Option Location → Machine → Prop
  /-- All of the text, and no file. -/
  | stdin : Given d m .stdin "-" (some d.text) none m
  /-- One new file, which the name leads to from every directory, and which holds the text. -/
  | file {source : String} {place : Location} (free : m.tree.get? place = none)
      (readable : (m.withTree (m.tree.put place (.file d.text.toUTF8 false))).read ⟨source⟩ =
        .ok d.text.toUTF8)
      (everywhere : m.tempDir.isAbsolute = true → ∀ workDir,
        { m.withTree (m.tree.put place (.file d.text.toUTF8 false)) with workDir }.read ⟨source⟩ =
          .ok d.text.toUTF8) :
      Given d m .file source none (some place)
        (m.withTree (m.tree.put place (.file d.text.toUTF8 false)))

/-- The files without the transient one. -/
def withoutTransient (transient : Option Location) (m : Machine) : Machine :=
  transient.elim m m.remove

theorem Prepared.given (h : Prepared d m mode input m') :
    ∃ transient, Given d m mode input.argument input.text? transient m' ∧
      ∀ tree, input.discard (m'.withTree tree) = withoutTransient transient (m.withTree tree) := by
  cases h with
  | stdin => exact ⟨none, .stdin, fun _ => rfl⟩
  | @file place n free located =>
    refine ⟨some place, .file free ?_ ?_, fun _ => rfl⟩
    · exact Machine.read_put free located _
    · intro habsolute workDir
      have hpath : (tempPath m d.source n).isAbsolute = true :=
        isAbsolute_tempPath habsolute d.source n
      exact (read_from hpath workDir).trans (Machine.read_put free located _)

/-- What was left as it was given is as it was before. -/
theorem Given.get?_withoutTransient {text : Option String} {transient : Option Location}
    {given : Machine} {tree : Tree} (h : Given d m mode source text transient given)
    (hq : tree.get? q = given.tree.get? q) :
    (withoutTransient transient (m.withTree tree)).tree.get? q = m.tree.get? q := by
  cases h with
  | stdin => exact hq
  | @file _ place free =>
    have hplace : place ≠ [] := (Tree.blocks_of_none free).ne_nil
    by_cases hwhere : q = place
    · subst hwhere
      have hfile : tree.get? q ≠ some .directory := by
        rw [hq]
        simp only [Machine.withTree, Tree.get?_put_self hplace]
        intro hdirectory
        cases hdirectory
      simp only [withoutTransient, Option.elim_some, Machine.remove, Machine.withTree, hfile,
        if_false, Tree.get?_erase_self hplace, free]
    · rw [withoutTransient, Option.elim_some, Machine.get?_remove_of_ne hwhere]
      exact hq.trans (Tree.get?_put_of_ne hwhere)

/-- The files at the end are those that the child left under the signals that it was sent. -/
theorem tree_watch (config : Config.Renderer) (child : Child) (source : String) (time : Int)
    (cancel : Option Nat) :
    ∃ signals, (watch config child source time cancel).tree = (child signals).tree := by
  rw [watch]
  split
  · exact ⟨_, rfl⟩
  · exact ⟨_, rfl⟩
  · split
    · exact ⟨_, rfl⟩
    · exact ⟨_, rfl⟩

/-- Why no renderer is started for a request. -/
inductive Unstarted (host : Host) (config : Config.Renderer) (d : Document) (m : Machine) :
    Option Nat → Prop
  | cancelledBefore : Unstarted host config d m (some 0)
  /-- There is no program for it, or no input. -/
  | unready {cancel : Option Nat} {fault : RenderFault} (unready : Unready config d m fault) :
      Unstarted host config d m cancel
  /-- The program cannot be started. -/
  | refused {cancel : Option Nat} {l : Launch} {fault : Fault} (ready : launch config d m = .ok l)
      (refused : host.start l.machine l.invocation = .error fault) :
      Unstarted host config d m cancel

/-- **The transient file never stays.** For every host, every renderer and every time of a
cancellation: where no renderer is started, the files are as they were. Where one is, it is given
the text under the name that is its last argument, through one new file or through its standard
input alone; its log is read with this name; and however it ends, the files are those that it left,
without the new one. So every place that it left as it found it is as it was before. -/
theorem transient_taken_away (host : Host) (config : Config.Renderer) (request : Request)
    (cancel : Option Nat) (m : Machine) :
    Unstarted host config request.document m cancel ∧
        (render host config request cancel m).machine = m ∨
      ∃ source transient given invocation started,
        Given request.document m config.input source invocation.input transient given ∧
        invocation.arguments.getLast? = some source ∧
        host.start given invocation = .ok started ∧
        let run := watch config started.child source m.time cancel
        (∃ signals, run.tree = (started.child signals).tree) ∧
        (render host config request cancel m).result =
          ⟨request.generation, run.outcome, run.log⟩ ∧
        (render host config request cancel m).machine =
          withoutTransient transient (m.withTree run.tree) ∧
        ∀ place, run.tree.get? place = given.tree.get? place →
          (render host config request cancel m).machine.tree.get? place = m.tree.get? place := by
  rw [render_eq_answer]
  by_cases hcancel : cancel = some 0
  · subst hcancel
    exact .inl ⟨.cancelledBefore, rfl⟩
  rw [if_neg hcancel]
  cases hlaunch : launch config request.document m with
  | error refused =>
    obtain ⟨fault, after⟩ := refused
    left
    exact ⟨.unready (launch_error_iff.mp ⟨after, hlaunch⟩), machine_of_launch_error hlaunch⟩
  | ok l =>
    obtain ⟨hprepared, program, leading, -, hinvocation⟩ := launch_ok hlaunch
    cases hstart : host.start l.machine l.invocation with
    | error fault =>
      left
      simp only [answer, hstart]
      exact ⟨.refused hlaunch hstart, hprepared.discard⟩
    | ok started =>
      right
      obtain ⟨transient, hgiven, hdiscard⟩ := hprepared.given
      have hinput : l.invocation.input = l.input.text? := by rw [hinvocation]; rfl
      have hlast : l.invocation.arguments.getLast? = some l.input.argument := by
        rw [hinvocation]
        simp only [invocation, Settings.renderArguments, ← List.append_assoc,
          List.getLast?_concat]
      refine ⟨l.input.argument, transient, l.machine, l.invocation, started, hinput ▸ hgiven, hlast,
        hstart, tree_watch .., ?_, ?_, ?_⟩
      · simp only [answer, hstart, hprepared.time_eq]
      · simp only [answer, hstart, hprepared.time_eq, hdiscard]
      · intro place hplace
        simp only [answer, hstart, hprepared.time_eq, hdiscard]
        exact hgiven.get?_withoutTransient hplace

/-- A machine with a song and a renderer. -/
private def studio : Machine where
  tree := ⟨[(["songs"], .directory), (["first.cho", "songs"], .file "[C]I heard".toUTF8 false),
    (["tmp"], .directory), (["bin"], .directory), (["chordpro", "bin"], .tool "chordpro")]⟩
  workDir := ["songs"]
  home := ⟨"/home"⟩
  tempDir := ⟨"/tmp"⟩
  searchPath := [⟨"/bin"⟩]
  time := 0

/-- A host whose programs write a page and change no file. -/
private def tidyHost : Host where
  start m _ := .ok ⟨7, fun _ =>
    ⟨[⟨1, "page".toUTF8⟩], [], some (2, .ok (.exited 0)), some 2, some 2, m.tree⟩⟩

/-- A request for the song. -/
private def firstRequest : Request :=
  ⟨1, ⟨"[C]I heard", {}, .file ⟨"/songs/first.cho"⟩⟩, .previewOnly⟩

/-- A renderer that changes no file reads the song and leaves everything as it was. -/
theorem tidy_renderer_leaves_files :
    (render tidyHost {} firstRequest none studio).result = ⟨1, .success "page".toUTF8, []⟩ ∧
      (render tidyHost {} firstRequest none studio).machine.tree.get?
        [".preview-000000.cho", "tmp"] = none := by
  constructor
  · decide +kernel
  · rcases transient_taken_away tidyHost {} firstRequest none studio with
      ⟨-, hmachine⟩ | ⟨_, _, given, _, started, -, -, hstart, ⟨signals, htree⟩, -, -, hkept⟩
    · rw [hmachine]
      rfl
    · obtain rfl : _ = started := Except.ok.inj hstart
      exact (hkept _ (by rw [htree])).trans rfl

end SongPreview.Rendering
