import SongPreview.Proofs.Watch.Feeding
import SongPreview.Proofs.Watch.Reloading

/-!
# Configurations that cannot be loaded

While a song is watched its configuration may be broken for a time: it cannot be read, or is no
document of the right form, or has problems. This file shows that nothing but the log learns of
it. The feeder stays as it is, whatever fails and however often, and the first configuration
that can be loaded again takes the place of the one before.
-/

namespace SongPreview

/-- A fault is told by one warning for each problem, in their order, or by a single one. -/
theorem ConfigFault.warnings_cases (fault : ConfigFault) (time : Int) :
    (∃ problems, fault = .invalid problems ∧
      fault.warnings time = problems.map fun p => .unattributed .warning p.line time) ∨
    (∀ problems, fault ≠ .invalid problems) ∧
      ∃ message, fault.warnings time = [.unattributed .warning message time] := by
  cases fault with
  | invalid problems => exact .inl ⟨problems, rfl, rfl⟩
  | _ => exact .inr ⟨nofun, _, rfl⟩

/-- Another content that can be loaded is loaded. -/
theorem LiveProject.reload_of_changed {live : LiveProject} {m : Machine} {line : CommandLine}
    {project : Project} (hload : (Project.load m line).2 = .ok project)
    (hchanged : hashOf m live.project.configPath ≠ live.hash) :
    (live.reload m line).2 = .ok (some ⟨project, hashOf m live.project.configPath⟩) := by
  rcases reload_cases m line live with ⟨hsame, -⟩ | ⟨loaded, hloaded, hfresh⟩ | ⟨fault, hfault, -⟩
  · exact absurd hsame hchanged
  · rw [hload] at hloaded
    cases hloaded
    exact hfresh
  · rw [hload] at hfault
    cases hfault

/-- A look fails because nothing can be loaded. -/
theorem LiveProject.load_of_fault {live : LiveProject} {m : Machine} {line : CommandLine}
    {fault : ConfigFault} (h : (live.reload m line).2 = .error fault) :
    (Project.load m line).2 = .error fault := by
  rcases reload_cases m line live with ⟨-, hkept⟩ | ⟨_, -, hfresh⟩ | ⟨other, hload, hfault⟩
  · rw [hkept] at h
    cases h
  · rw [hfresh] at h
    cases h
  · rw [hfault] at h
    cases h
    exact hload

namespace Feeder

variable {f : Feeder} {m : Machine} {fault : ConfigFault} {live : LiveProject}
  {looks : List (Machine × Look)}

/-- A look at the configuration finds none that can be loaded. -/
def Fails (f : Feeder) (m : Machine) : Prop :=
  ∃ fault, (f.live.reload m f.line).2 = .error fault

/-- What fails leaves the feeder as it is. -/
theorem configChanged_of_fault (h : (f.live.reload m f.line).2 = .error fault)
    (listening : Bool) : (f.configChanged m listening).1 = f := by
  rw [configChanged]
  rcases hreload : f.live.reload m f.line with ⟨console, reloaded⟩
  rw [hreload] at h
  obtain rfl : reloaded = .error fault := h
  rfl

/-- What fails sends its warnings to the scene, and nothing else. -/
theorem sent_of_fault (h : (f.live.reload m f.line).2 = .error fault) :
    (f.configChanged m true).2.sent = (fault.warnings m.time).map .notice := by
  rw [configChanged]
  rcases hreload : f.live.reload m f.line with ⟨console, reloaded⟩
  rw [hreload] at h
  obtain rfl : reloaded = .error fault := h
  simp [Fed.andThen, Fed.print, Fed.send]

/-- Events change nothing but the document that is kept and its settings. -/
theorem exists_foldl_keep (events : List Event) (f : Feeder) :
    ∃ settings latest, events.foldl keep f = { f with settings, latest } := by
  induction events generalizing f with
  | nil => exact ⟨f.settings, f.latest, rfl⟩
  | cons event events ih =>
    obtain ⟨settings, latest, hkept⟩ := ih (f.keep event)
    refine ⟨settings, latest, ?_⟩
    rw [List.foldl_cons, hkept]
    cases event <;> rfl

/-- What is loaded again is taken into use. -/
theorem live_of_reload (h : (f.live.reload m f.line).2 = .ok (some live)) :
    (f.look m .config).1.live = live := by
  rw [look, configChanged]
  rcases hreload : f.live.reload m f.line with ⟨console, reloaded⟩
  rw [hreload] at h
  obtain rfl : reloaded = .ok (some live) := h
  obtain ⟨settings, latest, hkept⟩ := exists_foldl_keep
    (f.live.project.config.changeEvents m.time live.project.config f.latest)
    { f with live, resources := Watched.resourcesOf m live.project.config.render }
  exact congrArg Feeder.live hkept

/-- A look at the song leaves the project in use and the command line. -/
theorem look_song_keeps (m : Machine) (f : Feeder) :
    (f.look m .song).1.live = f.live ∧ (f.look m .song).1.line = f.line := by
  rcases songChanged_cases m f with ⟨hsame, -⟩ | ⟨text, hread, -⟩
  · rw [look, hsame]
    exact ⟨rfl, rfl⟩
  · rw [look, hread]
    exact ⟨rfl, rfl⟩

/-- Looks that fail could as well be left out. -/
theorem after_of_fails (h : ∀ l ∈ looks, l.2 = .config → f.Fails l.1) :
    f.after looks = f.after (looks.filter fun l => l.2 = .song) := by
  induction looks generalizing f with
  | nil => rfl
  | cons l looks ih =>
    obtain ⟨m, l⟩ := l
    have hrest := fun l' hl' => h l' (List.mem_cons_of_mem _ hl')
    cases l with
    | song =>
      obtain ⟨hlive, hline⟩ := look_song_keeps m f
      rw [List.filter_cons_of_pos (by rfl)]
      apply ih
      intro l' hl' hconfig
      rw [Fails, hlive, hline]
      exact hrest l' hl' hconfig
    | config =>
      obtain ⟨fault, hfault⟩ := h _ List.mem_cons_self rfl
      have hsame : (f.look m .config).1 = f := configChanged_of_fault hfault true
      rw [List.filter_cons_of_neg (by simp)]
      change (f.look m .config).1.after looks = _
      rw [hsame]
      exact ih hrest

/-- Looks at the song leave the project in use and the command line. -/
theorem after_song_keeps (h : ∀ l ∈ looks, l.2 = .song) :
    (f.after looks).live = f.live ∧ (f.after looks).line = f.line := by
  induction looks generalizing f with
  | nil => exact ⟨rfl, rfl⟩
  | cons l looks ih =>
    obtain ⟨m, l⟩ := l
    obtain rfl : l = .song := h _ List.mem_cons_self
    obtain ⟨hlive, hline⟩ := look_song_keeps m f
    rw [← hlive, ← hline]
    exact ih fun l' hl' => h l' (List.mem_cons_of_mem _ hl')

/-- **Nothing but the log learns of a configuration that cannot be loaded.** Whatever a feeder
holds and keeps, a look that fails leaves all of it, and sends one warning for each problem of
the configuration, or a single one if there is none to have problems. It makes no difference to
anything after it. Once a configuration can be loaded again, and the hash of its file is not the
one that is kept, the next look takes it into use, whatever failed before. -/
theorem failed_reload_keeps_feeder (hfault : (f.live.reload m f.line).2 = .error fault)
    (hfails : ∀ l ∈ looks, l.2 = .config → f.Fails l.1) :
    (∀ listening, (f.configChanged m listening).1 = f) ∧
    ((∃ project, (Project.assemble m f.line).2 = .ok project ∧ project.config.problems ≠ [] ∧
        (f.configChanged m true).2.sent =
          project.config.problems.map fun p => .notice (.unattributed .warning p.line m.time)) ∨
      (∀ problems, fault ≠ .invalid problems) ∧
        ∃ message, (f.configChanged m true).2.sent =
          [.notice (.unattributed .warning message m.time)]) ∧
    f.after ((m, .config) :: looks) = f.after (looks.filter fun l => l.2 = .song) ∧
    ∀ m' project, (Project.load m' f.line).2 = .ok project →
      LiveProject.hashOf m' f.live.project.configPath ≠ f.live.hash →
      let g := f.after ((m, .config) :: looks)
      let live : LiveProject := ⟨project, LiveProject.hashOf m' f.live.project.configPath⟩
      (g.live.reload m' g.line).2 = .ok (some live) ∧ (g.look m' .config).1.live = live := by
  have hkept := configChanged_of_fault hfault
  have hafter : f.after ((m, .config) :: looks) = f.after (looks.filter fun l => l.2 = .song) := by
    rw [after_of_fails]
    · rfl
    · intro l hl hconfig
      rcases List.mem_cons.mp hl with rfl | hl
      · exact ⟨fault, hfault⟩
      · exact hfails l hl hconfig
  refine ⟨hkept, ?_, hafter, ?_⟩
  · rw [sent_of_fault hfault]
    rcases fault.warnings_cases m.time with ⟨problems, rfl, hwarnings⟩ | ⟨hother, message, hwarning⟩
    · have hload := LiveProject.load_of_fault hfault
      obtain ⟨project, hassemble, hproblems, rfl⟩ := Project.load_invalid_iff.mp hload
      refine .inl ⟨project, hassemble, hproblems, ?_⟩
      rw [hwarnings, List.map_map]
      rfl
    · refine .inr ⟨hother, message, ?_⟩
      rw [hwarning]
      rfl
  · intro m' project hload hchanged
    have hsongs : ∀ l ∈ looks.filter fun l => l.2 = .song, l.2 = .song := by simp
    obtain ⟨hlive, hline⟩ := after_song_keeps (f := f) hsongs
    rw [← hafter] at hlive hline
    have hreload : ((f.after ((m, .config) :: looks)).live.reload m'
        (f.after ((m, .config) :: looks)).line).2 =
        .ok (some ⟨project, LiveProject.hashOf m' f.live.project.configPath⟩) := by
      rw [hlive, hline]
      exact LiveProject.reload_of_changed hload hchanged
    exact ⟨hreload, live_of_reload hreload⟩

/-- The command to watch a song. -/
private def rehearsing : CommandLine where
  command := .watch ⟨"song.cho"⟩ {} none none none none

/-- A configuration that transposes every song, as it is, broken, cut off and mended. -/
private def sound : Machine := .configured "[render]\ntranspose = 2\n"

private def broken : Machine := .configured "[renderer]\ncommand = []\ntimeout_ms = 0\n"

private def cutOff : Machine := .configured "[render"

private def mended : Machine := .configured "[render]\ntranspose = 3\n"

/-- The project of a transposing configuration. -/
private def transposedBy (transpose : Int) : Project :=
  ⟨{ render := { transpose } }, ⟨"/songs/preview.toml"⟩, ⟨"/songs"⟩⟩

/-- The feeder with the sound configuration. -/
private def transposer : Feeder :=
  new sound rehearsing (.start sound (transposedBy 2)) ⟨"song.cho"⟩ false

/-- A configuration with three problems is told of in three warnings. Afterwards it cannot be read
for a time, and the mended one is taken into use. -/
theorem broken_config_mended :
    (∃ project, (Project.assemble broken rehearsing).2 = .ok project ∧
      (transposer.configChanged broken true).2.sent =
        project.config.problems.map fun p => .notice (.unattributed .warning p.line 0)) ∧
    (transposer.configChanged broken true).2.sent.length = 3 ∧
    ((transposer.after [(broken, .config), (cutOff, .config)]).look mended .config).1.live.project =
      transposedBy 3 := by
  have hfault : (transposer.live.reload broken transposer.line).2 =
      .error (.invalid [.emptyCommand, .noTime, .longDebounce 300 0]) := by
    decide +kernel
  have hfails : ∀ l ∈ [(cutOff, Look.config)], l.2 = .config → transposer.Fails l.1 := by
    intro l hl _
    cases List.mem_singleton.mp hl
    exact ⟨.malformed, by decide +kernel⟩
  have hload : (Project.load mended transposer.line).2 = .ok (transposedBy 3) := by
    decide +kernel
  have hchanged : LiveProject.hashOf mended transposer.live.project.configPath ≠
      transposer.live.hash := by
    decide +kernel
  obtain ⟨-, hsent, -, hmended⟩ := failed_reload_keeps_feeder hfault hfails
  refine ⟨?_, ?_, ?_⟩
  · rcases hsent with ⟨project, hassemble, -, hsent⟩ | ⟨hother, -⟩
    · exact ⟨project, hassemble, hsent⟩
    · exact absurd rfl (hother _)
  · rw [sent_of_fault hfault]
    rfl
  · rw [(hmended mended _ hload hchanged).2]

end Feeder

end SongPreview
