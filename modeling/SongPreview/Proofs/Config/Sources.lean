import SongPreview.Config.Loading
import SongPreview.Proofs.Machine.Places

/-!
# What a project depends on

A project comes from the configuration file that the search finds, from its content, and
from the home and the working directory. As long as the file at its configuration path
reads the same, loading it again gives the same project if and only if the search still
ends there.
-/

namespace SongPreview

namespace Machine

variable {m : Machine} {name p : Path}

theorem exists_of_findUpward (h : m.findUpward name m.workPath = some p) :
    m.exists? p = true := by
  rw [findUpward] at h
  split at h
  · split at h
    · next hexists => exact Option.some.inj h ▸ hexists
    · cases h
  · exact List.find?_some h

/-- Where the search finds nothing, nothing stands in the working directory. -/
theorem not_exists_of_findUpward (h : m.findUpward name m.workPath = none) :
    m.exists? (m.workPath.join name) = false := by
  rw [findUpward] at h
  split at h
  · next habsolute =>
    rw [Path.join, if_pos habsolute]
    simpa using h
  · rw [List.find?_eq_none] at h
    simpa using h (m.workPath.join name) (by simp)

/-- A machine that works in a directory with one configuration file. -/
def configured (text : String) : Machine where
  tree := ⟨[(["songs"], .directory), (["preview.toml", "songs"], .file text.toUTF8 false)]⟩
  workDir := ["songs"]
  home := ⟨"/home"⟩
  tempDir := ⟨"/tmp"⟩
  searchPath := []
  time := 0

end Machine

namespace Config

variable {m : Machine} {p : Path} {c : Config}

/-- The configuration that some bytes spell. -/
def ofBytes? (content : ByteArray) : Option Config :=
  (String.fromUTF8? content).bind fun text => (parse? text).map Prod.fst

theorem readFile_ok_iff : (readFile m p).2 = .ok c ↔ (m.seen p).bind ofBytes? = some c := by
  rw [readFile, Machine.readText, Machine.seen]
  cases m.read p with
  | error fault => simp [bind, Except.bind, Except.toOption]
  | ok content =>
    simp only [bind, Except.bind, Except.toOption, Option.bind_some, ofBytes?]
    cases String.fromUTF8? content with
    | none => simp [throw, throwThe, MonadExceptOf.throw]
    | some text =>
      simp only [pure, Except.pure, Option.bind_some]
      cases parse? text with
      | none => simp
      | some read => simp

end Config

namespace Project

variable {source m : Machine} {line : CommandLine} {project : Project}

/-- The path of the configuration file that the search finds, or where it would be. -/
def place (m : Machine) (line : CommandLine) : Path :=
  match m.findUpward line.config m.workPath with
  | none => m.workPath.join line.config
  | some path => m.normalize path

/-- The configuration file can be read, if the search finds one. -/
def readable (m : Machine) (line : CommandLine) : Bool :=
  (m.findUpward line.config m.workPath).all fun path => (m.seen path).isSome

theorem check_ok_iff {p : Project} :
    p.check = .ok project ↔ p = project ∧ project.config.problems = [] := by
  rw [check]
  split
  · next hsound =>
    rw [Except.ok.injEq]
    exact ⟨fun h => ⟨h, h ▸ hsound⟩, And.left⟩
  · next hunsound =>
    simp only [reduceCtorEq, false_iff, not_and]
    exact fun h => h ▸ hunsound

theorem check_error_iff {p : Project} {fault : ConfigFault} :
    p.check = .error fault ↔ p.config.problems ≠ [] ∧ fault = .invalid p.config.problems := by
  rw [check]
  split
  · next hsound => simp [hsound]
  · next hunsound => simp [hunsound, eq_comm]

/-- A project depends on the machine only through its home and its working directory. -/
theorem finish_congr (hhome : source.home = m.home) (hworkDir : source.workDir = m.workDir) :
    finish source = finish m := by
  funext line path c
  simp only [finish, Machine.workPath, hhome, hworkDir]

/-- A project is assembled without a configuration file or from one. -/
theorem assemble_ok_iff : (assemble m line).2 = .ok project ↔
    m.hasWorkDir = true ∧
      (m.findUpward line.config m.workPath = none ∧ finish m line (place m line) {} = project ∨
        ∃ path c, m.findUpward line.config m.workPath = some path ∧
          (m.seen path).bind Config.ofBytes? = some c ∧
          finish m line (place m line) c = project) := by
  rw [assemble, place]
  cases m.hasWorkDir with
  | false => simp
  | true =>
    cases m.findUpward line.config m.workPath with
    | none => simp
    | some path =>
      simp only [if_true, true_and, reduceCtorEq, false_and, false_or, Option.some.injEq,
        exists_and_left, exists_eq_left', ← Config.readFile_ok_iff]
      cases (Config.readFile m path).2 <;> simp [Except.map]

/-- A project is loaded if it is assembled and nothing is wrong with it. -/
theorem load_ok_iff : (load m line).2 = .ok project ↔
    (assemble m line).2 = .ok project ∧ project.config.problems = [] := by
  change (assemble m line).2 >>= check = _ ↔ _
  simp only [bind_eq_ok, check_ok_iff]
  exact ⟨fun ⟨p, hp, heq, hsound⟩ => ⟨heq ▸ hp, hsound⟩, fun ⟨hp, hsound⟩ => ⟨_, hp, rfl, hsound⟩⟩

/-- Nothing is called invalid before it is checked. -/
theorem assemble_ne_invalid {problems : List Config.Problem} :
    (assemble m line).2 ≠ .error (.invalid problems) := by
  rw [assemble]
  cases m.hasWorkDir with
  | false => simp
  | true =>
    cases m.findUpward line.config m.workPath with
    | none => simp
    | some path =>
      simp only [if_true, Config.readFile]
      cases m.readText path with
      | error fault => simp [Except.map]
      | ok document =>
        dsimp only
        cases Config.parse? document with
        | none => simp [Except.map]
        | some read => simp [Except.map]

/-- Problems are told of a project that is assembled but not sound. -/
theorem load_invalid_iff {problems : List Config.Problem} :
    (load m line).2 = .error (.invalid problems) ↔
      ∃ project, (assemble m line).2 = .ok project ∧ problems ≠ [] ∧
        problems = project.config.problems := by
  change (assemble m line).2 >>= check = _ ↔ _
  cases hassemble : (assemble m line).2 with
  | error fault =>
    have hother : fault ≠ .invalid problems := fun h => assemble_ne_invalid (h ▸ hassemble)
    simp [bind, Except.bind, hother]
  | ok project =>
    simp only [bind, Except.bind, check_error_iff, ConfigFault.invalid.injEq, Except.ok.injEq,
      exists_eq_left']
    constructor
    · rintro ⟨hunsound, rfl⟩
      exact ⟨hunsound, rfl⟩
    · rintro ⟨hunsound, rfl⟩
      exact ⟨hunsound, rfl⟩

theorem configPath_of_assemble (h : (assemble m line).2 = .ok project) :
    project.configPath = place m line := by
  obtain ⟨-, ⟨-, hproject⟩ | ⟨path, c, -, -, hproject⟩⟩ := assemble_ok_iff.mp h <;>
    rw [← hproject] <;> rfl

theorem readable_of_assemble (h : (assemble m line).2 = .ok project) :
    readable m line = true := by
  obtain ⟨-, ⟨hnone, -⟩ | ⟨path, c, hpath, hc, -⟩⟩ := assemble_ok_iff.mp h
  · simp [readable, hnone]
  · cases hseen : m.seen path with
    | none => simp [hseen] at hc
    | some content => simp [readable, hpath, hseen]

/-- Nothing is seen at the place of a configuration file that is not there. -/
theorem seen_place_of_none (h : m.findUpward line.config m.workPath = none) :
    m.seen (place m line) = none := by
  rw [place, h]
  exact Machine.seen_of_not_exists (Machine.not_exists_of_findUpward h)

/-- What is seen at the place of a configuration file is what the search finds. -/
theorem seen_place_of_some {path : Path} (hm : m.Regular)
    (h : m.findUpward line.config m.workPath = some path) :
    m.seen (place m line) = m.seen path := by
  rw [place, h]
  exact hm.seen_normalize (Machine.exists_of_findUpward h)

/-- A project whose configuration file reads as it did when it was assembled is what is
assembled again, if and only if the search still ends at that file and what stands there can be
read. -/
theorem assemble_iff_of_seen_eq (hsource : source.Regular) (hm : m.Regular)
    (hhome : source.home = m.home) (hworkDir : source.workDir = m.workDir)
    (hassembled : (assemble source line).2 = .ok project)
    (hseen : source.seen project.configPath = m.seen project.configPath) :
    (assemble m line).2 = .ok project ↔
      place m line = project.configPath ∧ readable m line = true := by
  constructor
  · exact fun h => ⟨(configPath_of_assemble h).symm, readable_of_assemble h⟩
  rintro ⟨hplace, hreadable⟩
  have hsame : source.seen (place source line) = m.seen (place m line) := by
    rw [← configPath_of_assemble hassembled, hplace]
    exact hseen
  rw [assemble_ok_iff, ← finish_congr hhome hworkDir, hplace, configPath_of_assemble hassembled]
  refine ⟨hm.hasWorkDir, ?_⟩
  obtain ⟨-, ⟨hnone, hproject⟩ | ⟨path, c, hpath, hc, hproject⟩⟩ := assemble_ok_iff.mp hassembled
  · -- without a file then, there is none that can be read now
    left
    refine ⟨?_, hproject⟩
    cases hfound : m.findUpward line.config m.workPath with
    | none => rfl
    | some path' =>
      have hsome : (m.seen path').isSome := by simpa [readable, hfound] using hreadable
      rw [← seen_place_of_some hm hfound, ← hsame, seen_place_of_none hnone] at hsome
      cases hsome
  · right
    cases hfound : m.findUpward line.config m.workPath with
    | none =>
      rw [seen_place_of_none hfound, seen_place_of_some hsource hpath] at hsame
      simp [hsame] at hc
    | some path' =>
      refine ⟨path', c, rfl, ?_, hproject⟩
      rw [← seen_place_of_some hm hfound, ← hsame, seen_place_of_some hsource hpath, hc]

/-- The same of a project that was loaded: nothing is wrong with it, then or now. -/
theorem load_iff_of_seen_eq (hsource : source.Regular) (hm : m.Regular)
    (hhome : source.home = m.home) (hworkDir : source.workDir = m.workDir)
    (hload : (load source line).2 = .ok project)
    (hseen : source.seen project.configPath = m.seen project.configPath) :
    (load m line).2 = .ok project ↔
      place m line = project.configPath ∧ readable m line = true := by
  obtain ⟨hassembled, hsound⟩ := load_ok_iff.mp hload
  rw [load_ok_iff, and_iff_left hsound]
  exact assemble_iff_of_seen_eq hsource hm hhome hworkDir hassembled hseen

end Project

end SongPreview
