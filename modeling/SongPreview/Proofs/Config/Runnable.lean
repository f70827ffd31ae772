import SongPreview.Proofs.Config.Sources
import SongPreview.Proofs.Rendering.Outcomes
import SongPreview.Query

/-!
# What a loaded configuration can be used for

A configuration is checked once, when it is loaded, and relied on by the renderings and by the
query about the renderer. This file says what the check demands, one problem for each demand
that fails, and what those behind it need. They take the first word of the command for the
program, while the check is content with any word that is not blank; so a command whose program
stands behind a blank word is loaded, and fails wherever it is used.
-/

namespace SongPreview

namespace Config

variable {c : Config} {m : Machine}

/-! ### What is demanded -/

/-- What the check of a configuration demands. -/
inductive Demand where
  /-- The command says something. -/
  | program
  /-- The renderer is given some time. -/
  | time
  /-- The wait before a rendering is shorter than that. -/
  | pause
  deriving DecidableEq

namespace Demand

/-- All demands, in their order. -/
def all : List Demand :=
  [program, time, pause]

/-- Whether a configuration fails a demand. -/
def failedBy (c : Config) : Demand → Bool
  | program => c.renderer.command.all Text.isBlankString
  | time => c.renderer.timeout = 0
  | pause => c.renderer.timeout ≤ c.pipeline.debounce

/-- The problem of a configuration that fails a demand. -/
def problem (c : Config) : Demand → Problem
  | program => .emptyCommand
  | time => .noTime
  | pause => .longDebounce c.pipeline.debounce c.renderer.timeout

end Demand

/-- There is one problem for each demand that fails, in their order. -/
theorem problems_eq (c : Config) :
    c.problems = (Demand.all.filter (Demand.failedBy c)).map (Demand.problem c) := by
  simp only [problems, Demand.all, List.filter_cons, List.filter_nil, Demand.failedBy,
    decide_eq_true_eq]
  split <;> split <;> split <;> rfl

/-- Nothing is wrong if the command says something and the times are in order. -/
theorem problems_eq_nil_iff : c.problems = [] ↔
    (∃ word ∈ c.renderer.command, Text.isBlankString word = false) ∧ 0 < c.renderer.timeout ∧
      c.pipeline.debounce < c.renderer.timeout := by
  simp only [problems_eq, List.map_eq_nil_iff, List.filter_eq_nil_iff, Demand.all,
    List.forall_mem_cons, List.not_mem_nil, false_implies, implies_true, and_true, Demand.failedBy,
    Bool.not_eq_true, List.all_eq_false, decide_eq_false_iff_not, Nat.pos_iff_ne_zero, Nat.not_le,
    ne_eq]

/-! ### What is needed -/

/-- The command begins with a word that can name a program. -/
def NamesProgram (c : Config) : Prop :=
  ∃ word, c.program? = some word ∧ Text.isBlankString word = false

/-- The command begins with a blank word, and says something behind it. -/
def HidesProgram (c : Config) : Prop :=
  (∀ word, c.program? = some word → Text.isBlankString word = true) ∧
    ∃ word ∈ c.renderer.command, Text.isBlankString word = false

theorem not_namesProgram_iff :
    ¬c.NamesProgram ↔ ∀ word, c.program? = some word → Text.isBlankString word = true := by
  simp only [NamesProgram, not_exists, not_and, Bool.not_eq_false]

/-- Without a first word that is not blank there is nothing to render with. -/
theorem resolve_eq_emptyCommand_iff :
    Rendering.resolve m c.renderer.command = .error .emptyCommand ↔ ¬c.NamesProgram := by
  rw [Rendering.resolve_error_iff, not_namesProgram_iff]
  simp [program?]

/-- Without a first word that is not blank there is nobody to ask. -/
theorem query_eq_emptyCommand_iff {host : Host} :
    (RendererInfo.query host m c.renderer).1 = .error .emptyCommand ↔ ¬c.NamesProgram := by
  have hall : (c.program?.all Text.isBlankString = true) ↔ ¬c.NamesProgram := by
    rw [not_namesProgram_iff]
    cases c.program? <;> simp
  rw [← hall, RendererInfo.query]
  change (if c.program?.all Text.isBlankString = true then _ else _ : _ × _).1 = _ ↔ _
  split
  · next hblank => exact ⟨fun _ => hblank, fun _ => rfl⟩
  · next hworded =>
    rw [iff_false_right hworded]
    rcases Query.run host m c.renderer.command c.renderer.infoArguments with ⟨fault | answer, after⟩
    · simp
    · dsimp only
      split <;> simp

end Config

namespace Project

variable {m : Machine} {line : CommandLine} {project : Project}

/-- **What loading promises.** In every configuration that is loaded, with the options of the
command line in it, the times are in order, and the command begins with a word that can name a
program or hides it behind a blank one. A rendering and a query complain of an empty command if
and only if it is hidden. Problems are told if and only if the assembled configuration fails a
demand, one for each demand that fails. -/
theorem loaded_runs_unless_hidden (m : Machine) (line : CommandLine) :
    (∀ project, (load m line).2 = .ok project →
      0 < project.config.renderer.timeout ∧
      project.config.pipeline.debounce < project.config.renderer.timeout ∧
      (project.config.NamesProgram ∨ project.config.HidesProgram) ∧
      (∀ m', Rendering.resolve m' project.config.renderer.command = .error .emptyCommand ↔
        project.config.HidesProgram) ∧
      ∀ host m', (RendererInfo.query host m' project.config.renderer).1 = .error .emptyCommand ↔
        project.config.HidesProgram) ∧
    ∀ problems, (load m line).2 = .error (.invalid problems) ↔
      ∃ project, (assemble m line).2 = .ok project ∧ problems ≠ [] ∧
        problems = (Config.Demand.all.filter (Config.Demand.failedBy project.config)).map
          (Config.Demand.problem project.config) := by
  constructor
  · intro project hload
    obtain ⟨hsaid, htime, hpause⟩ := Config.problems_eq_nil_iff.mp (load_ok_iff.mp hload).2
    have hhides : ¬project.config.NamesProgram ↔ project.config.HidesProgram := by
      rw [Config.not_namesProgram_iff, Config.HidesProgram, and_iff_left hsaid]
    refine ⟨htime, hpause, ?_, fun m' => ?_, fun host m' => ?_⟩
    · rw [← hhides]
      exact em _
    · rw [Config.resolve_eq_emptyCommand_iff, hhides]
    · rw [Config.query_eq_emptyCommand_iff, hhides]
  · intro problems
    simp only [load_invalid_iff, Config.problems_eq]

/-- A query about the renderer, with some time for it. -/
private def asking (timeout : Option Nat) : CommandLine where
  command := .info { timeout } false

/-- The command of a configuration that is loaded. -/
private theorem exists_of_command {words : List String}
    (h : (load m line).2.map (fun project => project.config.renderer.command) = .ok words) :
    ∃ project, (load m line).2 = .ok project ∧ project.config.renderer.command = words := by
  cases hload : (load m line).2 with
  | error fault =>
    rw [hload] at h
    cases h
  | ok project =>
    rw [hload] at h
    exact ⟨project, rfl, Except.ok.inj h⟩

/-- A script whose wait is longer than the time that it is given. -/
private def impatient : Machine :=
  .configured "[renderer]\ncommand = [\"perl\", \"chordpro.pl\"]\ntimeout_ms = 200\n"

/-- Two demands fail at once. -/
private def unusable : Machine :=
  .configured "[renderer]\ncommand = [\" \"]\n[pipeline]\ndebounce_ms = 20000\n"

/-- The script can be used with the time of the command line, and without it there is one
problem. -/
theorem impatient_loaded_with_timeout :
    (∃ project, (load impatient (asking (some 500))).2 = .ok project ∧
      project.config.pipeline.debounce < project.config.renderer.timeout ∧
      ∀ m', Rendering.resolve m' project.config.renderer.command ≠ .error .emptyCommand) ∧
    (load impatient (asking none)).2 = .error (.invalid [.longDebounce 300 200]) ∧
    ∃ project, (assemble unusable (asking none)).2 = .ok project ∧
      [.emptyCommand, .longDebounce 20000 20000] =
        (Config.Demand.all.filter (Config.Demand.failedBy project.config)).map
          (Config.Demand.problem project.config) := by
  obtain ⟨project, hload, hwords⟩ := exists_of_command
    (show (load impatient (asking (some 500))).2.map _ = .ok ["perl", "chordpro.pl"] by
      decide +kernel)
  obtain ⟨-, hpause, -, hresolve, -⟩ := (loaded_runs_unless_hidden _ _).1 project hload
  have hprogram : ¬project.config.HidesProgram := by
    intro hhides
    have hblank := hhides.1 "perl" (by rw [Config.program?, hwords]; rfl)
    exact absurd hblank (by decide)
  have hinvalid : (load unusable (asking none)).2 =
      .error (.invalid [.emptyCommand, .longDebounce 20000 20000]) := by
    decide +kernel
  obtain ⟨unsound, hassemble, -, hproblems⟩ := ((loaded_runs_unless_hidden _ _).2 _).mp hinvalid
  refine ⟨⟨project, hload, hpause, fun m' => mt (hresolve m').mp hprogram⟩, by decide +kernel,
    unsound, hassemble, hproblems⟩

/-- A command whose program stands behind an empty word. -/
private def misspelt : Machine :=
  .configured "[renderer]\ncommand = [\"\", \"chordpro\"]\n"

/-- Not every configuration that is loaded can be used: an empty word in front of the program is
let through, and then nothing can be rendered and nobody be asked. -/
theorem hidden_program_loaded :
    ¬ ∀ (m : Machine) (line : CommandLine) (project : Project), (load m line).2 = .ok project →
      (∀ m', Rendering.resolve m' project.config.renderer.command ≠ .error .emptyCommand) ∧
        ∀ host m', (RendererInfo.query host m' project.config.renderer).1 ≠
          .error .emptyCommand := by
  intro h
  obtain ⟨project, hload, hwords⟩ := exists_of_command
    (show (load misspelt (asking none)).2.map _ = .ok ["", "chordpro"] by decide +kernel)
  refine (h misspelt (asking none) project hload).1 misspelt ?_
  rw [hwords]
  decide +kernel

end Project

end SongPreview
