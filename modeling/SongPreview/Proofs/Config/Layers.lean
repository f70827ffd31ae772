import SongPreview.Proofs.Config.Runnable
import SongPreview.Proofs.Watch.Reloading

/-!
# Options over the file over the defaults

A configuration has three layers. What an option of the command line gives comes before what
the file tells, and this before the default. `Config.merged` says so field by field; loading
reaches it by reading the sections, making the paths of the file absolute, and putting the
options of one of three commands over the result. It does so at the start and whenever the file
has changed, and only the merged values are checked.
-/

namespace SongPreview

/-- The view that an option gives. -/
def Command.pane? : Command → Option Pane
  | watch _ _ _ _ pane _ => pane
  | _ => none

/-- The wait that an option gives. -/
def Command.debounce? : Command → Option Nat
  | watch _ _ _ _ _ debounce => debounce
  | _ => none

/-- The place for the page that an option gives. -/
def Command.output? : Command → Option Path
  | watch _ _ output _ _ _ => output
  | render _ _ output => output
  | info .. => none

/-- The place for the log that an option gives. -/
def Command.log? : Command → Option Path
  | watch _ _ _ log _ _ => log
  | _ => none

namespace Config

open Toml (Value)

variable {α : Type} {entries : List (String × Value)} {c : Config} {home root : Path}

/-! ### What a file tells -/

/-- What the entries of a file tell of a field of one of its sections, if they tell anything. -/
def told? (entries : List (String × Value)) (sect : String × List String) (name : String)
    (read : Value → Option α) : Option α := do
  let v ← Toml.find? entries sect.1
  let field ← fields? sect.2 v
  read (← field name)

/-- The value that three layers give. -/
def layered (given told : Option α) (default : α) : α :=
  (given.or told).getD default

/-- The configuration that the options of a command, the entries of a file and the defaults give.
Options reach eight fields, and each command has only some of them. Paths that an option gives are
taken as they are, and those of the file are read from inside `root`. -/
def merged (command : Command) (home root : Path) (entries : List (String × Value)) : Config :=
  let renderer := ("renderer", rendererFields)
  let render := ("render", renderFields)
  let preview := ("preview", previewFields)
  { renderer := {
      command := layered (command.options.renderer.map fun p => [p.text])
        (told? entries renderer "command" (readList readText)) ["chordpro"]
      infoArguments := layered none
        (told? entries renderer "info_args" (readList readText)) ["-A", "-A", "-A"]
      input := layered (if command.options.stdin then some .stdin else none)
        (told? entries renderer "input" (readWord InputMode.ofName?)) .file
      timeout := layered command.options.timeout
        (told? entries renderer "timeout_ms" readMilliseconds) 20000
      grace := layered none (told? entries renderer "grace_ms" readMilliseconds) 500 }
    pipeline := {
      debounce := layered command.debounce?
        (told? entries ("pipeline", pipelineFields) "debounce_ms" readMilliseconds) 300 }
    render := {
      paper := told? entries render "paper" readText
      transpose := layered command.options.transpose
        (told? entries render "transpose" (readInteger (-Nat.pow 2 31) (Nat.pow 2 31 - 1))) 0
      noteNames := told? entries render "notation" readText
      diagrams := layered none (told? entries render "diagrams" readBool) true
      configs := (layered none (told? entries render "configs" (readList readPath)) []).map
        (Path.expand home root)
      task := (told? entries render "task" readPath).map (Path.expand home root)
      defines := layered none (told? entries render "defines" readDefines) .empty
      extraArguments := layered none
        (told? entries render "extra_args" (readList readText)) [] }
    preview := {
      pane := layered command.pane?
        (told? entries preview "pane" (readWord Pane.ofName?)) .editorAndPreview
      output := command.output?.or
        ((told? entries preview "output" readPath).map (Path.expand home root))
      log := command.log?.or
        ((told? entries preview "log" readPath).map (Path.expand home root)) } }

/-! ### What is read -/

theorem fieldOr_eq_some {field : String → Option Value} {name : String}
    {read : Value → Option α} {default x : α} (h : fieldOr field name read default = some x) :
    x = ((field name).bind read).getD default := by
  rw [fieldOr] at h
  cases hfield : field name with
  | none =>
    rw [hfield] at h
    exact (Option.some.inj h).symm
  | some v =>
    rw [hfield] at h
    simp [h]

/-- A value that may be left out is what is told, if anything. -/
theorem fieldOr_optional {field : String → Option Value} {name : String}
    {read : Value → Option α} {x : Option α}
    (h : fieldOr field name (readOptional read) none = some x) : x = (field name).bind read := by
  rw [fieldOr] at h
  cases hfield : field name with
  | none =>
    rw [hfield] at h
    exact (Option.some.inj h).symm
  | some v =>
    rw [hfield] at h
    cases hread : read v with
    | none => simp [readOptional, hread] at h
    | some y => simpa [readOptional, hread, eq_comm] using h

/-- A section is absent, and tells nothing, or it is read. -/
theorem told_of_section {β : Type} (sect : String × List String)
    {readSection : Value → Option β} {default r : β}
    (h : fieldOr (Toml.find? entries) sect.1 readSection default = some r) :
    (r = default ∧ ∀ {α : Type} (name : String) (read : Value → Option α),
        told? entries sect name read = none) ∨
      ∃ v, readSection v = some r ∧ ∀ field, fields? sect.2 v = some field →
        ∀ {α : Type} (name : String) (read : Value → Option α),
          told? entries sect name read = (field name).bind read := by
  rw [fieldOr] at h
  cases hfind : Toml.find? entries sect.1 with
  | none =>
    rw [hfind] at h
    exact .inl ⟨(Option.some.inj h).symm, fun name read => by simp [told?, hfind]⟩
  | some v =>
    rw [hfind] at h
    refine .inr ⟨v, h, fun field hfield _ name read => ?_⟩
    simp [told?, hfind, hfield]

theorem renderer_told {r : Renderer}
    (h : fieldOr (Toml.find? entries) "renderer" readRenderer {} = some r) :
    let told {α : Type} := @told? α entries ("renderer", rendererFields)
    r = { command := (told "command" (readList readText)).getD ["chordpro"]
          infoArguments := (told "info_args" (readList readText)).getD ["-A", "-A", "-A"]
          input := (told "input" (readWord InputMode.ofName?)).getD .file
          timeout := (told "timeout_ms" readMilliseconds).getD 20000
          grace := (told "grace_ms" readMilliseconds).getD 500 } := by
  -- an absent section leaves every default, and one that is there is read field by field
  rcases told_of_section ("renderer", rendererFields) h with
    ⟨rfl, hnone⟩ | ⟨v, hread, htold⟩
  · simp only [hnone, Option.getD_none]
  · simp only [readRenderer, Option.bind_eq_bind, Option.bind_eq_some_iff, Option.pure_def,
      Option.some.injEq] at hread
    obtain ⟨field, hfield, _, hcommand, _, hinfo, _, hinput, _, htimeout, _, hgrace, rfl⟩ := hread
    simp only [htold field hfield, fieldOr_eq_some hcommand, fieldOr_eq_some hinfo,
      fieldOr_eq_some hinput, fieldOr_eq_some htimeout, fieldOr_eq_some hgrace]

theorem pipeline_told {p : Pipeline}
    (h : fieldOr (Toml.find? entries) "pipeline" readPipeline {} = some p) :
    p = { debounce :=
      (told? entries ("pipeline", pipelineFields) "debounce_ms" readMilliseconds).getD 300 } := by
  rcases told_of_section ("pipeline", pipelineFields) h with
    ⟨rfl, hnone⟩ | ⟨v, hread, htold⟩
  · simp only [hnone, Option.getD_none]
  · simp only [readPipeline, Option.bind_eq_bind, Option.bind_eq_some_iff, Option.pure_def,
      Option.some.injEq] at hread
    obtain ⟨field, hfield, _, hdebounce, rfl⟩ := hread
    simp only [htold field hfield, fieldOr_eq_some hdebounce]

theorem render_told {r : Settings}
    (h : fieldOr (Toml.find? entries) "render" readSettings {} = some r) :
    let told {α : Type} := @told? α entries ("render", renderFields)
    let readSemitones := readInteger (-Nat.pow 2 31) (Nat.pow 2 31 - 1)
    r = { paper := told "paper" readText
          transpose := (told "transpose" readSemitones).getD 0
          noteNames := told "notation" readText
          diagrams := (told "diagrams" readBool).getD true
          configs := (told "configs" (readList readPath)).getD []
          task := told "task" readPath
          defines := (told "defines" readDefines).getD .empty
          extraArguments := (told "extra_args" (readList readText)).getD [] } := by
  rcases told_of_section ("render", renderFields) h with
    ⟨rfl, hnone⟩ | ⟨v, hread, htold⟩
  · simp only [hnone, Option.getD_none]
  · simp only [readSettings, Option.bind_eq_bind, Option.bind_eq_some_iff, Option.pure_def,
      Option.some.injEq] at hread
    obtain ⟨field, hfield, _, hpaper, _, htranspose, _, hnames, _, hdiagrams, _, hconfigs, _, htask,
      _, hdefines, _, hextra, rfl⟩ := hread
    simp only [htold field hfield, fieldOr_optional hpaper, fieldOr_eq_some htranspose,
      fieldOr_optional hnames, fieldOr_eq_some hdiagrams, fieldOr_eq_some hconfigs,
      fieldOr_optional htask, fieldOr_eq_some hdefines, fieldOr_eq_some hextra]

theorem preview_told {v : Preview}
    (h : fieldOr (Toml.find? entries) "preview" readPreview {} = some v) :
    let told {α : Type} := @told? α entries ("preview", previewFields)
    v = { pane := (told "pane" (readWord Pane.ofName?)).getD .editorAndPreview
          output := told "output" readPath
          log := told "log" readPath } := by
  rcases told_of_section ("preview", previewFields) h with
    ⟨rfl, hnone⟩ | ⟨v, hread, htold⟩
  · simp only [hnone, Option.getD_none]
  · simp only [readPreview, Option.bind_eq_bind, Option.bind_eq_some_iff, Option.pure_def,
      Option.some.injEq] at hread
    obtain ⟨field, hfield, _, hpane, _, houtput, _, hlog, rfl⟩ := hread
    simp only [htold field hfield, fieldOr_eq_some hpane, fieldOr_optional houtput,
      fieldOr_optional hlog]

/-! ### What the options make of it -/

theorem layered_eq (given told : Option α) (default : α) :
    layered given told default = given.getD (told.getD default) := by
  cases given <;> rfl

/-- Every option is put over its own field, and a command without an option leaves the field. -/
theorem withCommand_eq (command : Command) (c : Config) :
    c.withCommand command =
      { renderer := { c.renderer with
          command := (command.options.renderer.map fun p => [p.text]).getD c.renderer.command
          input := (if command.options.stdin then some .stdin else none).getD c.renderer.input
          timeout := command.options.timeout.getD c.renderer.timeout }
        pipeline := { debounce := command.debounce?.getD c.pipeline.debounce }
        render := { c.render with
          transpose := command.options.transpose.getD c.render.transpose }
        preview := {
          pane := command.pane?.getD c.preview.pane
          output := command.output?.or c.preview.output
          log := command.log?.or c.preview.log } } := by
  have hoptions : c.withOptions command.options =
      { c with
        renderer := { c.renderer with
          command := (command.options.renderer.map fun p => [p.text]).getD c.renderer.command
          input := (if command.options.stdin then some .stdin else none).getD c.renderer.input
          timeout := command.options.timeout.getD c.renderer.timeout }
        render := { c.render with
          transpose := command.options.transpose.getD c.render.transpose } } := by
    rw [withOptions]
    cases command.options.renderer <;> cases command.options.stdin <;> rfl
  rw [withCommand.eq_def, hoptions]
  cases command <;> rfl

/-- The configuration of a file, with its paths made absolute and the options of a command put over
it, is the merged one. -/
theorem merged_eq (h : ofEntries? entries = some c) (command : Command) (home root : Path) :
    (c.resolve home root).withCommand command = merged command home root entries := by
  simp only [ofEntries?, Option.bind_eq_bind, Option.bind_eq_some_iff, Option.pure_def,
    Option.some.injEq] at h
  obtain ⟨r, hrenderer, p, hpipeline, s, hrender, v, hpreview, rfl⟩ := h
  rw [withCommand_eq, renderer_told hrenderer, pipeline_told hpipeline, render_told hrender,
    preview_told hpreview]
  simp only [resolve, Settings.resolve, merged, layered_eq, Option.getD_none]

/-- Nothing is wrong if no demand fails. -/
theorem problems_eq_nil_iff_meets : c.problems = [] ↔ ∀ d : Demand, d.failedBy c = false := by
  have hall (d : Demand) : d ∈ Demand.all := by cases d <;> decide
  simp only [problems_eq, List.map_eq_nil_iff, List.filter_eq_nil_iff, hall, true_imp_iff,
    Bool.not_eq_true]

end Config

/-! ### Loading -/

namespace Project

variable {m : Machine} {line : CommandLine} {project : Project}
  {entries : List (String × Toml.Value)}

/-- The entries of the configuration file. Without a file there are none. -/
def entries? (m : Machine) (line : CommandLine) : Option (List (String × Toml.Value)) :=
  match m.findUpward line.config m.workPath with
  | none => some []
  | some path => (m.seen path).bind fun content => (String.fromUTF8? content).bind Toml.read?

/-- The configuration file can be read as these entries, every one of its kind. -/
structure Reads (m : Machine) (line : CommandLine) (entries : List (String × Toml.Value)) :
    Prop where
  hasWorkDir : m.hasWorkDir = true
  read : entries? m line = some entries
  wellKinded : (Config.ofEntries? entries).isSome = true

/-- The project that a command line gives with the entries of a file. -/
def merged (m : Machine) (line : CommandLine) (entries : List (String × Toml.Value)) : Project :=
  let root := (place m line).parent?.getD m.workPath
  ⟨.merged line.command m.home root entries, place m line, root⟩

/-- What bytes spell is what their entries spell. -/
theorem ofBytes?_eq (content : ByteArray) : Config.ofBytes? content =
    ((String.fromUTF8? content).bind Toml.read?).bind Config.ofEntries? := by
  rw [Config.ofBytes?, Option.bind_assoc]
  congr 1
  funext text
  rw [Config.parse?]
  cases Toml.read? text with
  | none => rfl
  | some entries => cases hc : Config.ofEntries? entries <;> simp [hc]

theorem finish_eq_merged {c : Config} (h : Config.ofEntries? entries = some c) :
    finish m line (place m line) c = merged m line entries := by
  rw [finish, merged, Config.merged_eq h]

/-- What is assembled is the merged project. -/
theorem assemble_ok_iff_merged : (assemble m line).2 = .ok project ↔
    ∃ entries, Reads m line entries ∧ project = merged m line entries := by
  rw [assemble_ok_iff]
  constructor
  · rintro ⟨hworkDir, ⟨hnone, rfl⟩ | ⟨path, c, hpath, hc, rfl⟩⟩
    · have hempty : Config.ofEntries? [] = some {} := rfl
      refine ⟨[], ⟨hworkDir, ?_, rfl⟩, finish_eq_merged hempty⟩
      rw [entries?, hnone]
    · obtain ⟨content, hcontent, hbytes⟩ := Option.bind_eq_some_iff.mp hc
      rw [ofBytes?_eq] at hbytes
      obtain ⟨entries, hentries, hspelled⟩ := Option.bind_eq_some_iff.mp hbytes
      refine ⟨entries, ⟨hworkDir, ?_, ?_⟩, finish_eq_merged hspelled⟩
      · rw [entries?, hpath]
        simp only [hcontent, Option.bind_some, hentries]
      · rw [hspelled, Option.isSome_some]
  · rintro ⟨entries, ⟨hworkDir, hread, hkinds⟩, rfl⟩
    obtain ⟨c, hc⟩ := Option.isSome_iff_exists.mp hkinds
    refine ⟨hworkDir, ?_⟩
    rw [← finish_eq_merged hc]
    rw [entries?] at hread
    cases hpath : m.findUpward line.config m.workPath with
    | none =>
      rw [hpath] at hread
      obtain rfl : entries = [] := (Option.some.inj hread).symm
      obtain rfl : c = {} := (Option.some.inj hc).symm
      exact .inl ⟨rfl, rfl⟩
    | some path =>
      rw [hpath] at hread
      obtain ⟨content, hcontent, hentries⟩ := Option.bind_eq_some_iff.mp hread
      refine .inr ⟨path, c, rfl, ?_, rfl⟩
      rw [hcontent, Option.bind_some, ofBytes?_eq, hentries, Option.bind_some, hc]

/-- **Options win over the file, and the file over the defaults.** A configuration can be loaded if
and only if its file can be read and the merged values meet every demand, and then it is the
merged one; problems are told if and only if some merged value fails a demand, one for each demand.
So a value of the file that an option hides is not judged. In a session the project in use is, from
the start and after any looks at the files, the merged one of the file as it was when it was last
loaded, with the options of the command line; and what a look loads is merged from the file as it
is then. -/
theorem options_win (line : CommandLine) :
    (∀ m project, (load m line).2 = .ok project ↔
      ∃ entries, Reads m line entries ∧ project = merged m line entries ∧
        ∀ d : Config.Demand, d.failedBy (merged m line entries).config = false) ∧
    (∀ m problems, (load m line).2 = .error (.invalid problems) ↔
      ∃ entries, Reads m line entries ∧ problems ≠ [] ∧
        problems = (Config.Demand.all.filter
          (Config.Demand.failedBy (merged m line entries).config)).map
            (Config.Demand.problem (merged m line entries).config)) ∧
    (∀ first t looks, TracedProject.start? first line = .ok t →
      (t.after line looks).source ∈ first :: looks ∧
      ∃ entries, Reads (t.after line looks).source line entries ∧
        (t.after line looks).live.project = merged (t.after line looks).source line entries) ∧
    ∀ (live fresh : LiveProject) now, (live.reload now line).2 = .ok (some fresh) →
      ∃ entries, Reads now line entries ∧ fresh.project = merged now line entries := by
  have hloaded {m : Machine} {project : Project} (h : (load m line).2 = .ok project) :
      ∃ entries, Reads m line entries ∧ project = merged m line entries :=
    assemble_ok_iff_merged.mp (load_ok_iff.mp h).1
  refine ⟨fun m project => ?_, fun m problems => ?_, fun first t looks hstart => ?_, ?_⟩
  · rw [load_ok_iff, assemble_ok_iff_merged]
    constructor
    · rintro ⟨⟨entries, hreads, rfl⟩, hsound⟩
      exact ⟨entries, hreads, rfl, Config.problems_eq_nil_iff_meets.mp hsound⟩
    · rintro ⟨entries, hreads, rfl, hmeets⟩
      exact ⟨⟨entries, hreads, rfl⟩, Config.problems_eq_nil_iff_meets.mpr hmeets⟩
  · rw [load_invalid_iff]
    simp only [assemble_ok_iff_merged, Config.problems_eq]
    constructor
    · rintro ⟨_, ⟨entries, hreads, rfl⟩, hproblems⟩
      exact ⟨entries, hreads, hproblems⟩
    · rintro ⟨entries, hreads, hproblems⟩
      exact ⟨_, ⟨entries, hreads, rfl⟩, hproblems⟩
  · obtain ⟨hfaithful, rfl⟩ := TracedProject.faithful_start hstart
    exact ⟨TracedProject.source_mem_after line looks, hloaded (hfaithful.after looks).loaded⟩
  · exact fun live fresh now h => hloaded (LiveProject.load_of_reload h)

/-- A command to watch a song with a time limit of its own, and perhaps a wait. -/
private def hurried (debounce : Option Nat) : CommandLine where
  command := .watch ⟨"song.cho"⟩ { timeout := some 5000 } (some ⟨"out.pdf"⟩) none none debounce

/-- A configuration that gives a rendering no time, and names places. -/
private def timeless : Machine :=
  .configured "[renderer]\ntimeout_ms = 0\n[preview]\noutput = \"a.pdf\"\nlog = \"a.log\"\n"

/-- A configuration that gives it more time than the command line. -/
private def patient : Machine :=
  .configured "[renderer]\ntimeout_ms = 60000\n[pipeline]\ndebounce_ms = 400\n"

/-- The project of the first configuration. -/
private def hurriedProject : Project where
  config := {
    renderer := { timeout := 5000 }
    preview := { output := some ⟨"out.pdf"⟩, log := some ⟨"/songs/a.log"⟩ } }
  configPath := ⟨"/songs/preview.toml"⟩
  root := ⟨"/songs"⟩

/-- The project of the second one. -/
private def pausingProject : Project :=
  { hurriedProject with
    config := {
      renderer := { timeout := 5000 }
      pipeline := { debounce := 400 }
      preview := { output := some ⟨"out.pdf"⟩ } } }

/-- The option hides the bad value of the file, at the start and after the file has changed; a good
value is spoiled by the wait of the command line. -/
theorem hurried_over_timeless :
    (load timeless (hurried none)).2 = .ok hurriedProject ∧
    (∃ entries, Reads timeless (hurried none) entries ∧
      hurriedProject = merged timeless (hurried none) entries) ∧
    (∃ fresh entries,
      ((LiveProject.start timeless hurriedProject).reload patient (hurried none)).2 =
        .ok (some fresh) ∧
      Reads patient (hurried none) entries ∧
      pausingProject = merged patient (hurried none) entries) ∧
    ∃ entries, Reads patient (hurried (some 5000)) entries ∧
      [.longDebounce 5000 5000] = (Config.Demand.all.filter (Config.Demand.failedBy
        (merged patient (hurried (some 5000)) entries).config)).map
          (Config.Demand.problem (merged patient (hurried (some 5000)) entries).config) := by
  obtain ⟨hload, -, -, hreload⟩ := options_win (hurried none)
  have hhidden : (load timeless (hurried none)).2 = .ok hurriedProject := by decide +kernel
  have hfresh : ((LiveProject.start timeless hurriedProject).reload patient (hurried none)).2 =
      .ok (some ⟨pausingProject, LiveProject.hashOf patient hurriedProject.configPath⟩) := by
    decide +kernel
  have hspoiled : (load patient (hurried (some 5000))).2 =
      .error (.invalid [.longDebounce 5000 5000]) := by
    decide +kernel
  obtain ⟨entries, hreads, hmerged, -⟩ := (hload timeless hurriedProject).mp hhidden
  obtain ⟨entries', hreads', hmerged'⟩ := hreload _ _ _ hfresh
  obtain ⟨entries'', hreads'', -, hproblems⟩ :=
    ((options_win (hurried (some 5000))).2.1 _ _).mp hspoiled
  exact ⟨hhidden, ⟨entries, hreads, hmerged⟩, ⟨_, entries', hfresh, hreads', hmerged'⟩, entries'',
    hreads'', hproblems⟩

end Project

end SongPreview
