import SongPreview.Proofs.Config.Sources
import SongPreview.Proofs.Machine.Spelling
import SongPreview.Watch.FileChange
import Mathlib.Data.List.Forall2

/-!
# The paths of the renderer's files

A configuration file names further files that the renderer reads. The renderer is started in the
directory of the song, which may be another one, so each of these paths has to lead to the same
file from everywhere. After a load all of them are absolute, in the order of the file, and the
renderer is given exactly the paths that are watched.
-/

namespace SongPreview

namespace Path

variable {home root base p q : Path}

/-- What a path in a configuration file stands for: itself if it is absolute, a path in the home
directory if it begins with a tilde alone, and a path in the directory `root` otherwise. -/
inductive StandsFor (home root : Path) : Path → Path → Prop
  | absolute {p : Path} (absolute : p.isAbsolute = true) : StandsFor home root p p
  | home : StandsFor home root ⟨"~"⟩ home
  | inHome (rest : String) : StandsFor home root ⟨"~/" ++ rest⟩ ⟨home.text ++ "/" ++ rest⟩
  | inside {p : Path} (relative : p.isAbsolute = false) (notHome : p.text ≠ "~")
      (notInHome : ∀ rest, p.text ≠ "~/" ++ rest) : StandsFor home root p (root.join p)

theorem expandHome_of_isAbsolute (h : p.isAbsolute = true) : expandHome home p = p := by
  unfold expandHome
  split
  · next rest htext => simp [isAbsolute, htext] at h
  · rfl

theorem expand_of_isAbsolute (h : p.isAbsolute = true) : expand home base p = p := by
  rw [expand, expandHome_of_isAbsolute h, join_of_isAbsolute h]

theorem expandHome_tilde : expandHome home ⟨"~"⟩ = home := by
  cases home
  simp [expandHome]

theorem expandHome_inHome (rest : String) :
    expandHome home ⟨"~/" ++ rest⟩ = ⟨home.text ++ "/" ++ rest⟩ := by
  have hrest : String.ofList ('/' :: rest.toList) = "/" ++ rest := by
    rw [← String.toList_inj]
    simp
  simp [expandHome, hrest, String.append_assoc]

/-- Without a tilde at its front, alone or before a slash, a path is left as it is. -/
theorem expandHome_of_ne (hhome : p.text ≠ "~") (hinHome : ∀ rest, p.text ≠ "~/" ++ rest) :
    expandHome home p = p := by
  unfold expandHome
  split
  · next rest htext =>
    rw [if_neg]
    rintro (rfl | hslash)
    · exact hhome (String.toList_inj.mp htext)
    · obtain ⟨rest', rfl⟩ := List.head?_eq_some_iff.mp hslash
      refine hinHome (String.ofList rest') (String.toList_inj.mp ?_)
      simpa using htext
  · rfl

/-- What a path of a configuration file is expanded to is what it stands for. -/
theorem standsFor_expand (hhome : home.isAbsolute = true) (p : Path) :
    StandsFor home root p (expand home root p) := by
  cases habsolute : p.isAbsolute with
  | true =>
    rw [expand_of_isAbsolute habsolute]
    exact .absolute habsolute
  | false =>
    by_cases htilde : p.text = "~"
    · obtain rfl : p = ⟨"~"⟩ := by rw [← htilde]
      rw [expand, expandHome_tilde, join_of_isAbsolute hhome]
      exact .home
    · by_cases hinHome : ∃ rest, p.text = "~/" ++ rest
      · obtain ⟨rest, htext⟩ := hinHome
        obtain rfl : p = ⟨"~/" ++ rest⟩ := by rw [← htext]
        have hexpanded : Path.isAbsolute ⟨home.text ++ "/" ++ rest⟩ = true :=
          isAbsolute_append (isAbsolute_append hhome _) _
        rw [expand, expandHome_inHome, join_of_isAbsolute hexpanded]
        exact .inHome rest
      · rw [not_exists] at hinHome
        rw [expand, expandHome_of_ne htilde hinHome]
        exact .inside habsolute htilde hinHome

theorem isAbsolute_of_standsFor (hhome : home.isAbsolute = true) (hroot : root.isAbsolute = true)
    (h : StandsFor home root p q) : q.isAbsolute = true := by
  cases h with
  | absolute habsolute => exact habsolute
  | home => exact hhome
  | inHome rest => exact isAbsolute_append (isAbsolute_append hhome _) _
  | inside => exact isAbsolute_join hroot

end Path

namespace Tree

variable {t : Tree} {p : Path}

/-- Where an absolute path leads does not depend on where it is followed from. -/
theorem locate_of_isAbsolute (h : p.isAbsolute = true) (workDir workDir' : Location) :
    t.locate workDir p = t.locate workDir' p := by
  rw [locate, locate, start, start, if_pos h, if_pos h]

end Tree

namespace Machine

variable {m : Machine} {p : Path} {place : Location}

/-- The machine, working in another directory. -/
def workingIn (m : Machine) (place : Location) : Machine :=
  { m with workDir := place }

theorem find_workingIn (h : p.isAbsolute = true) (place : Location) :
    (m.workingIn place).find p = m.find p := by
  rw [find, find]
  exact congrArg (· >>= _) (Tree.locate_of_isAbsolute h _ _)

/-- An absolute path to nothing stays as it is. -/
theorem normalize_of_isAbsolute (h : p.isAbsolute = true) :
    m.normalize p = (m.canonical p).toOption.getD p := by
  rw [normalize, Path.join_of_isAbsolute h, ite_self]
  cases m.canonical p <;> rfl

theorem normalize_workingIn (h : p.isAbsolute = true) (place : Location) :
    (m.workingIn place).normalize p = m.normalize p := by
  rw [normalize_of_isAbsolute h, normalize_of_isAbsolute h, canonical, canonical,
    find_workingIn h]

end Machine

namespace Settings

variable {written s : Settings} {home root : Path}

/-- Files that are named by what was written, with every path resolved. -/
structure FilesOf (home root : Path) (written s : Settings) : Prop where
  configs : s.configs = (written.resolve home root).configs
  task : s.task = (written.resolve home root).task

theorem FilesOf.standFor (h : FilesOf home root written s) (hhome : home.isAbsolute = true) :
    written.configs.Forall₂ (Path.StandsFor home root) s.configs ∧
      written.task.toList.Forall₂ (Path.StandsFor home root) s.task.toList := by
  have hexpanded (paths : List Path) :
      paths.Forall₂ (Path.StandsFor home root) (paths.map (Path.expand home root)) :=
    List.forall₂_map_right_iff.mpr
      (List.forall₂_same.mpr fun p _ => Path.standsFor_expand hhome p)
  rw [h.configs, h.task]
  exact ⟨hexpanded _, Option.toList_map .. ▸ hexpanded _⟩

theorem FilesOf.resourceFiles (h : FilesOf home root written s) :
    s.resourceFiles = written.resourceFiles.map (Path.expand home root) := by
  rw [Settings.resourceFiles, Settings.resourceFiles, h.configs, h.task, List.map_append, resolve,
    Option.toList_map]

theorem FilesOf.isAbsolute (h : FilesOf home root written s) (hhome : home.isAbsolute = true)
    (hroot : root.isAbsolute = true) : ∀ p ∈ s.resourceFiles, p.isAbsolute = true := by
  intro p hp
  rw [h.resourceFiles] at hp
  obtain ⟨q, -, rfl⟩ := List.mem_map.mp hp
  exact Path.isAbsolute_of_standsFor hhome hroot (Path.standsFor_expand hhome q)

/-- Paths that are absolute are resolved already. -/
theorem resolve_of_isAbsolute (h : ∀ p ∈ s.resourceFiles, p.isAbsolute = true) :
    s.resolve home root = s := by
  have hconfigs : s.configs.map (Path.expand home root) = s.configs := by
    rw [List.map_congr_left fun p hp => Path.expand_of_isAbsolute (h p (List.mem_append_left _ hp)),
      List.map_id']
  have htask : s.task.map (Path.expand home root) = s.task := by
    cases htask : s.task with
    | none => rfl
    | some p =>
      have hp : p ∈ s.resourceFiles := List.mem_append_right _ (by simp [htask])
      rw [Option.map_some, Path.expand_of_isAbsolute (h p hp)]
  rw [resolve, hconfigs, htask]

/-- The arguments name the files that the renderer reads, in their order, and go on with what does
not depend on them. -/
theorem arguments_eq (s : Settings) : s.arguments =
    s.resourceFiles.map (fun p => "--config=" ++ p.text) ++
      ({ s with configs := [], task := none } : Settings).arguments := by
  simp only [arguments, resourceFiles, List.append_assoc, Option.toList_none, List.append_nil,
    List.map_nil, List.nil_append]

end Settings

/-- The options of a command leave the renderer's files as they are. -/
theorem Config.filesOf_withCommand (command : Command) (home root : Path) (c : Config) :
    c.render.FilesOf home root ((c.resolve home root).withCommand command).render := by
  cases command <;> exact ⟨rfl, rfl⟩

namespace Project

variable {m : Machine} {line : CommandLine} {project : Project}

/-- What a configuration file says by itself; without one, what the defaults say. -/
def written? (m : Machine) (line : CommandLine) : Option Config :=
  match m.findUpward line.config m.workPath with
  | none => some {}
  | some path => (m.seen path).bind Config.ofBytes?

/-- A project that is loaded comes from what its file says. -/
theorem exists_written (h : (load m line).2 = .ok project) :
    ∃ written, written? m line = some written ∧
      project = finish m line (place m line) written := by
  obtain ⟨-, hcases⟩ := assemble_ok_iff.mp (load_ok_iff.mp h).1
  rcases hcases with ⟨hnone, hproject⟩ | ⟨path, c, hpath, hc, hproject⟩
  · exact ⟨{}, by rw [written?, hnone], hproject.symm⟩
  · exact ⟨c, by rw [written?, hpath]; exact hc, hproject.symm⟩

/-- A configuration file is known by an absolute path, whether it is there or not. -/
theorem isAbsolute_place (m : Machine) (line : CommandLine) : (place m line).isAbsolute = true := by
  rw [place]
  cases hfound : m.findUpward line.config m.workPath with
  | none => exact Path.isAbsolute_join Tree.isAbsolute_path
  | some path =>
    have hexists : m.exists? path = true := Machine.exists_of_findUpward hfound
    rw [Machine.exists?, isOk_iff] at hexists
    obtain ⟨⟨there, entry⟩, hfind⟩ := hexists
    have hplace : m.normalize path = there.path := Machine.normalize_of_find hfind
    exact (congrArg Path.isAbsolute hplace).trans Tree.isAbsolute_path

/-- The directory that paths of the file are read from is absolute. -/
theorem isAbsolute_root (m : Machine) (line : CommandLine) :
    ((place m line).parent?.getD m.workPath).isAbsolute = true := by
  cases hparent : (place m line).parent? with
  | none => exact Tree.isAbsolute_path
  | some dir =>
    exact Path.isAbsolute_parents (isAbsolute_place m line) dir (List.mem_of_head? hparent)

/-- **The renderer's files do not depend on where it runs.** Of every project that is loaded, with
its configuration file or without one, the paths of the renderer's files are those that the file
writes, in the same number and order. Each stands for what was written: an absolute path for
itself, a path behind a tilde for one in the home directory, and any other for one in the directory
of the configuration file. So all of them are absolute, and resolving them again changes nothing.
The arguments of the renderer name exactly these files, in this order, and nothing else in them
depends on the two fields. From whatever directory the renderer is started, at whatever time, each
of these paths leads to the same file, and the files under watch are these. -/
theorem renderer_files_of_load (hhome : m.home.isAbsolute = true)
    (hload : (load m line).2 = .ok project) :
    ∃ written, written? m line = some written ∧
      project.root = (place m line).parent?.getD m.workPath ∧
      let s := project.config.render
      written.render.configs.Forall₂ (Path.StandsFor m.home project.root) s.configs ∧
      written.render.task.toList.Forall₂ (Path.StandsFor m.home project.root) s.task.toList ∧
      (∀ p ∈ s.resourceFiles, p.isAbsolute = true) ∧
      s.resolve m.home project.root = s ∧
      s.arguments = s.resourceFiles.map (fun p => "--config=" ++ p.text) ++
        ({ s with configs := [], task := none } : Settings).arguments ∧
      ∀ (later : Machine) (dir : Location),
        (∀ p ∈ s.resourceFiles, (later.workingIn dir).find p = later.find p) ∧
          Watched.resourcesOf (later.workingIn dir) s = Watched.resourcesOf later s := by
  obtain ⟨written, hwritten, rfl⟩ := exists_written hload
  have hroot := isAbsolute_root m line
  refine ⟨written, hwritten, rfl, ?_⟩
  intro s
  have hfiles : Settings.FilesOf m.home ((place m line).parent?.getD m.workPath) written.render s :=
    Config.filesOf_withCommand line.command _ _ written
  obtain ⟨hconfigs, htask⟩ := hfiles.standFor hhome
  have habsolute := hfiles.isAbsolute hhome hroot
  refine ⟨hconfigs, htask, habsolute, Settings.resolve_of_isAbsolute habsolute, s.arguments_eq,
    fun later dir => ⟨fun p hp => Machine.find_workingIn (habsolute p hp) dir, ?_⟩⟩
  exact List.map_congr_left fun p hp => Machine.normalize_workingIn (habsolute p hp) dir

/-- A directory under the one of the configuration file, which names files in four ways. -/
private def onTour : Machine :=
  let home := Machine.configured
    ("[render]\nconfigs = [\"band.json\", \"~/chords.json\", \"/etc/a4.json\"]\n" ++
      "task = \"../large.json\"\n")
  (home.withTree (home.tree.put ["tour", "songs"] .directory)).workingIn ["tour", "songs"]

/-- The command to render a song. -/
private def rendering : CommandLine where
  command := .render ⟨"song.cho"⟩ {} none

/-- The project there. -/
private def toured : Project where
  config := { render := {
    configs := [⟨"/songs/band.json"⟩, ⟨"/home/chords.json"⟩, ⟨"/etc/a4.json"⟩]
    task := some ⟨"/songs/../large.json"⟩ } }
  configPath := ⟨"/songs/preview.toml"⟩
  root := ⟨"/songs"⟩

/-- Started in the directory of a song on tour, the renderer still gets the files of the
configuration that was found above it. -/
theorem files_of_tour :
    onTour.home.isAbsolute = true ∧ (load onTour rendering).2 = .ok toured ∧
      (∀ p ∈ toured.config.render.resourceFiles, p.isAbsolute = true) ∧
      ∀ (later : Machine) (dir : Location),
        Watched.resourcesOf (later.workingIn dir) toured.config.render =
          Watched.resourcesOf later toured.config.render := by
  have hhome : onTour.home.isAbsolute = true := by decide
  have hload : (load onTour rendering).2 = .ok toured := by decide +kernel
  obtain ⟨written, -, -, -, -, habsolute, -, -, hanywhere⟩ := renderer_files_of_load hhome hload
  exact ⟨hhome, hload, habsolute, fun later dir => (hanywhere later dir).2⟩

end Project

end SongPreview
