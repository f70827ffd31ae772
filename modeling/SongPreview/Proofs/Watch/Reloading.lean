import SongPreview.Watch.LiveProject
import SongPreview.Proofs.Config.Sources
import Mathlib.Data.List.Basic
import Mathlib.Data.List.Induction

/-!
# The project in use and the files

A session looks at one file to see whether its project is still right: at the one that the
project came from, by its hash. This file says what a look can promise. A project that is
loaded again is the one that the files give. One that is kept is the one that the files give
if and only if the search still ends at the file that was looked at; a file that appears
nearer by is not noticed until the other one changes.
-/

namespace SongPreview

namespace Machine

variable {m : Machine} {p : Path} {content : ByteArray}

/-- Everything that can be read on a machine. -/
def contents (m : Machine) : List ByteArray :=
  .empty :: m.tree.entries.filterMap fun
    | (_, .file content _) => some content
    | _ => none

theorem mem_contents_of_seen (h : m.seen p = some content) : content ∈ m.contents := by
  rw [seen_eq_some, read] at h
  cases hfind : m.find p with
  | error fault => simp [hfind, bind, Except.bind] at h
  | ok found =>
    obtain ⟨place, entry⟩ := found
    have hentry := (find_ok_iff.mp hfind).2
    cases entry with
    | file kept executable =>
      obtain rfl : kept = content := by
        simpa [hfind, bind, Except.bind, pure, Except.pure] using h
      have hplace : place ≠ [] := (Tree.blocks_of_file hentry).ne_nil
      have hmem := Tree.mem_entries_of_get? hentry hplace
      exact List.mem_cons_of_mem _ (List.mem_filterMap.mpr ⟨_, hmem, rfl⟩)
    | directory => simp [hfind, bind, Except.bind, throw, throwThe, MonadExceptOf.throw] at h
    | _ =>
      obtain rfl : ByteArray.empty = content := by
        simpa [hfind, bind, Except.bind, pure, Except.pure] using h
      exact List.mem_cons_self

end Machine

namespace LiveProject

variable {m : Machine} {p : Path} {line : CommandLine} {live fresh : LiveProject}

/-- The hash of what a file can be read as, zero if it cannot be read. -/
def hashSeen (seen : Option ByteArray) : Nat :=
  seen.elim 0 fun content => (Digest.of content).word64

theorem hashOf_eq : hashOf m p = hashSeen (m.seen p) := by
  rw [hashOf, Machine.seen]
  cases m.read p <;> rfl

/-- Different contents have different hashes, and none has the one of a file that cannot be
read. -/
def HashesApart (contents : List ByteArray) : Prop :=
  ∀ a ∈ none :: contents.map some, ∀ b ∈ none :: contents.map some, hashSeen a = hashSeen b → a = b

instance (contents : List ByteArray) : Decidable (HashesApart contents) :=
  inferInstanceAs (Decidable (∀ a ∈ _, ∀ b ∈ _, hashSeen a = hashSeen b → a = b))

/-- A look keeps the project if the hash is the same, and loads it otherwise. -/
theorem reload_cases (m : Machine) (line : CommandLine) (live : LiveProject) :
    hashOf m live.project.configPath = live.hash ∧ (live.reload m line).2 = .ok none ∨
      (∃ project, (Project.load m line).2 = .ok project ∧
        (live.reload m line).2 = .ok (some ⟨project, hashOf m live.project.configPath⟩)) ∨
      ∃ fault, (Project.load m line).2 = .error fault ∧ (live.reload m line).2 = .error fault := by
  rw [reload]
  split
  · next hsame => exact .inl ⟨hsame, rfl⟩
  · right
    cases hload : (Project.load m line).2 with
    | error fault => exact .inr ⟨fault, rfl, by simp [hload, Except.map]⟩
    | ok project => exact .inl ⟨project, rfl, by simp [hload, Except.map]⟩

/-- A project that is loaded again is the one that the files give. -/
theorem load_of_reload (h : (live.reload m line).2 = .ok (some fresh)) :
    (Project.load m line).2 = .ok fresh.project := by
  rcases reload_cases m line live with ⟨-, hkept⟩ | ⟨project, hload, hfresh⟩ | ⟨_, -, hfault⟩
  · simp [hkept] at h
  · obtain rfl : _ = fresh := by simpa [hfresh] using h
    exact hload
  · simp [hfault] at h

end LiveProject

/-- A project in use, and how it came about. -/
structure TracedProject where
  live : LiveProject
  /-- The machine at the time of the last loading. -/
  source : Machine
  /-- The file whose hash is kept. -/
  hashed : Path

namespace TracedProject

variable {t : TracedProject} {m first : Machine} {line : CommandLine} {looks : List Machine}

/-- The project of a command line, taken into use. -/
def start? (m : Machine) (line : CommandLine) : Except ConfigFault TracedProject :=
  (Project.load m line).2.map fun project => ⟨.start m project, m, project.configPath⟩

/-- Another look at the files. The hash that is kept is that of the file that was looked at. -/
def look (line : CommandLine) (t : TracedProject) (m : Machine) : TracedProject :=
  match (t.live.reload m line).2 with
  | .ok (some live) => ⟨live, m, t.live.project.configPath⟩
  | _ => t

/-- The project after looks at the files, as they stand each time. -/
def after (t : TracedProject) (line : CommandLine) (looks : List Machine) : TracedProject :=
  looks.foldl (look line) t

/-- What is kept of a project is what its loading gave. -/
structure Faithful (line : CommandLine) (t : TracedProject) : Prop where
  loaded : (Project.load t.source line).2 = .ok t.live.project
  hash : t.live.hash = LiveProject.hashOf t.source t.hashed

theorem faithful_start (h : start? first line = .ok t) : t.Faithful line ∧ t.source = first := by
  rw [start?] at h
  cases hload : (Project.load first line).2 with
  | error fault => simp [hload, Except.map] at h
  | ok project =>
    obtain rfl : _ = t := by simpa [hload, Except.map] using h
    exact ⟨⟨hload, rfl⟩, rfl⟩

theorem Faithful.look (h : t.Faithful line) (m : Machine) : (t.look line m).Faithful line := by
  rw [TracedProject.look]
  rcases LiveProject.reload_cases m line t.live with ⟨-, hkept⟩ | ⟨project, hload, hfresh⟩ |
    ⟨_, -, hfault⟩
  · rwa [hkept]
  · rw [hfresh]
    exact ⟨hload, rfl⟩
  · rwa [hfault]

theorem Faithful.after (h : t.Faithful line) (looks : List Machine) :
    (t.after line looks).Faithful line := by
  induction looks generalizing t with
  | nil => exact h
  | cons m looks ih => exact ih (h.look m)

/-- The last loading was at the start or at one of the looks. -/
theorem source_mem_after (line : CommandLine) (looks : List Machine) :
    (t.after line looks).source ∈ t.source :: looks := by
  induction looks generalizing t with
  | nil => exact List.mem_singleton_self _
  | cons m looks ih =>
    have hlook : (t.look line m).source = t.source ∨ (t.look line m).source = m := by
      rw [look]
      split
      · exact .inr rfl
      · exact .inl rfl
    have hmem : (t.after line (m :: looks)).source ∈ (t.look line m).source :: looks := ih
    rcases hlook with hkept | hrenewed
    · rw [hkept] at hmem
      exact List.mem_cons.mpr ((List.mem_cons.mp hmem).imp_right (List.mem_cons_of_mem _))
    · rw [hrenewed] at hmem
      exact List.mem_cons_of_mem _ hmem

/-- A machine during a session: only its files have changed since the start, and what they hold
is among some contents. -/
structure InSession (first : Machine) (contents : List ByteArray) (m : Machine) : Prop where
  regular : m.Regular
  home : m.home = first.home
  workDir : m.workDir = first.workDir
  contents : ∀ content ∈ m.contents, content ∈ contents

instance (first : Machine) (contents : List ByteArray) (m : Machine) :
    Decidable (InSession first contents m) :=
  decidable_of_iff
    (m.Regular ∧ m.home = first.home ∧ m.workDir = first.workDir ∧
      ∀ content ∈ m.contents, ∃ c ∈ contents, c = content)
    ⟨fun ⟨hregular, hhome, hworkDir, hcontents⟩ =>
        ⟨hregular, hhome, hworkDir, fun content h => by simpa using hcontents content h⟩,
      fun h => ⟨h.regular, h.home, h.workDir,
        fun content hmem => ⟨content, h.contents content hmem, rfl⟩⟩⟩

/-- What two machines of a session see is the same if the hashes are. -/
theorem InSession.seen_eq {contents : List ByteArray} {m' : Machine} {p : Path}
    (hm : InSession first contents m) (hm' : InSession first contents m')
    (hapart : LiveProject.HashesApart contents)
    (h : LiveProject.hashOf m p = LiveProject.hashOf m' p) : m.seen p = m'.seen p := by
  have hmem {m : Machine} (hm : InSession first contents m) :
      m.seen p ∈ none :: contents.map some := by
    cases hseen : m.seen p with
    | none => exact List.mem_cons_self
    | some content =>
      have := hm.contents content (Machine.mem_contents_of_seen hseen)
      simpa using this
  rw [LiveProject.hashOf_eq, LiveProject.hashOf_eq] at h
  exact hapart _ (hmem hm) _ (hmem hm') h

/-- **What a look at the configuration promises.** A session begins with the project that the
files give and looks at them again and again, while files come, change and go. If a look loads
the project again, it is the one that the files give. If a look keeps the project, and the hash
that is kept was taken from the file at its configuration path, then it is the one that the
files give if and only if the search still ends at that path and the file there, if there is
one, can be read. -/
theorem reload_tracks_files (line : CommandLine) (first now : Machine) (looks : List Machine)
    (contents : List ByteArray) (hstart : start? first line = .ok t)
    (hsession : ∀ m ∈ first :: now :: looks, InSession first contents m)
    (hapart : LiveProject.HashesApart contents) :
    (∀ fresh, ((t.after line looks).live.reload now line).2 = .ok (some fresh) →
      (Project.load now line).2 = .ok fresh.project) ∧
    (((t.after line looks).live.reload now line).2 = .ok none →
      (t.after line looks).hashed = (t.after line looks).live.project.configPath →
      ((Project.load now line).2 = .ok (t.after line looks).live.project ↔
        Project.place now line = (t.after line looks).live.project.configPath ∧
          Project.readable now line = true)) := by
  refine ⟨fun fresh => LiveProject.load_of_reload, fun hkept hhashed => ?_⟩
  obtain ⟨hfaithful, hfirst⟩ := faithful_start hstart
  obtain ⟨hloaded, hhash⟩ := hfaithful.after looks
  have hsource : InSession first contents (t.after line looks).source := by
    apply hsession
    rcases List.mem_cons.mp (hfirst ▸ source_mem_after line looks) with h | h <;> simp [h]
  have hnow : InSession first contents now := hsession now (by simp)
  have hsame : LiveProject.hashOf now (t.after line looks).live.project.configPath =
      (t.after line looks).live.hash := by
    rcases LiveProject.reload_cases now line (t.after line looks).live with ⟨hsame, -⟩ |
      ⟨_, -, hfresh⟩ | ⟨_, -, hfault⟩
    · exact hsame
    · simp [hfresh] at hkept
    · simp [hfault] at hkept
  refine Project.load_iff_of_seen_eq hsource.regular hnow.regular
    (hsource.home.trans hnow.home.symm) (hsource.workDir.trans hnow.workDir.symm) hloaded ?_
  apply hsource.seen_eq hnow hapart
  rw [hsame, hhash, hhashed]

/-- A machine that works in a directory inside the one with the songs. -/
private def shelf (files : List (Location × String)) : Machine where
  tree := ⟨[(["songs"], .directory), (["live", "songs"], .directory)] ++
    files.map fun (place, text) => (place, .file text.toUTF8 false)⟩
  workDir := ["live", "songs"]
  home := ⟨"/home"⟩
  tempDir := ⟨"/tmp"⟩
  searchPath := []
  time := 0

/-- The configuration of all songs. -/
private def ofSongs : Location × String :=
  (["preview.toml", "songs"], "[render]\ntranspose = 2\n")

/-- The configuration of the songs in the working directory. -/
private def ofLive : Location × String :=
  (["preview.toml", "live", "songs"], "[render]\ntranspose = 3\n")

/-- The command to watch a song. -/
private def playing : CommandLine where
  command := .watch ⟨"song.cho"⟩ {} none none none none

/-- The project that the configuration of all songs gives. -/
private def ofSongsProject : Project :=
  ⟨{ render := { transpose := 2 } }, ⟨"/songs/preview.toml"⟩, ⟨"/songs"⟩⟩

/-- The session begins with the configuration of all songs. -/
private def begun : TracedProject :=
  ⟨.start (shelf [ofSongs]) ofSongsProject, shelf [ofSongs], ofSongsProject.configPath⟩

private theorem start?_begun : start? (shelf [ofSongs]) playing = .ok begun := by
  have hload : (Project.load (shelf [ofSongs]) playing).2 = .ok ofSongsProject := by
    decide +kernel
  rw [start?, hload]
  rfl

/-- Everything that can be read in these sessions. -/
private def spoken : List ByteArray :=
  [.empty, ofSongs.2.toUTF8, ofLive.2.toUTF8]

private theorem hashesApart_spoken : LiveProject.HashesApart spoken := by
  decide +kernel

/-- The only configuration is taken away, and one comes in the working directory. -/
private def moves : List Machine :=
  [shelf [], shelf [ofLive]]

private theorem inSession_shelves : InSession (shelf [ofSongs]) spoken (shelf [ofSongs]) ∧
    InSession (shelf [ofSongs]) spoken (shelf [ofSongs, ofLive]) ∧
    ∀ m ∈ moves, InSession (shelf [ofSongs]) spoken m := by
  decide +kernel

/-- After the configuration moved to the working directory, the other one comes back without
making a difference, and once it is the only one again it is loaded. -/
theorem moved_config_tracked :
    (((begun.after playing moves).live.reload (shelf [ofSongs, ofLive]) playing).2 = .ok none ∧
      (Project.load (shelf [ofSongs, ofLive]) playing).2 =
        .ok (begun.after playing moves).live.project ∧
      (begun.after playing moves).live.project.config.render.transpose = 3) ∧
    ∃ fresh, ((begun.after playing moves).live.reload (shelf [ofSongs]) playing).2 =
        .ok (some fresh) ∧
      (Project.load (shelf [ofSongs]) playing).2 = .ok fresh.project ∧
      fresh.project.config.render.transpose = 2 := by
  obtain ⟨hkept, hhashed, hplace, htranspose, hloaded⟩ :
      ((begun.after playing moves).live.reload (shelf [ofSongs, ofLive]) playing).2 = .ok none ∧
      (begun.after playing moves).hashed = (begun.after playing moves).live.project.configPath ∧
      (Project.place (shelf [ofSongs, ofLive]) playing =
          (begun.after playing moves).live.project.configPath ∧
        Project.readable (shelf [ofSongs, ofLive]) playing = true) ∧
      (begun.after playing moves).live.project.config.render.transpose = 3 ∧
      ((begun.after playing moves).live.reload (shelf [ofSongs]) playing).2 =
        .ok (some ⟨ofSongsProject, 0⟩) := by
    decide +kernel
  obtain ⟨hfirst, hboth, hmoves⟩ := inSession_shelves
  constructor
  · have hsession := List.forall_mem_cons.mpr ⟨hfirst, List.forall_mem_cons.mpr ⟨hboth, hmoves⟩⟩
    have hiff := (reload_tracks_files playing (shelf [ofSongs]) (shelf [ofSongs, ofLive]) moves
      spoken start?_begun hsession hashesApart_spoken).2 hkept hhashed
    exact ⟨hkept, hiff.mpr hplace, htranspose⟩
  · have hsession := List.forall_mem_cons.mpr ⟨hfirst, List.forall_mem_cons.mpr ⟨hfirst, hmoves⟩⟩
    exact ⟨_, hloaded, (reload_tracks_files playing (shelf [ofSongs]) (shelf [ofSongs]) moves
      spoken start?_begun hsession hashesApart_spoken).1 _ hloaded, rfl⟩

/-- A look at the configuration does not always leave the project that the files give: one that
appears nearer by is not noticed. -/
theorem nearer_config_unnoticed :
    ¬ ∀ (line : CommandLine) (first now : Machine) (looks : List Machine) (t : TracedProject)
        (contents : List ByteArray), start? first line = .ok t →
      (∀ m ∈ first :: now :: looks, InSession first contents m) →
      LiveProject.HashesApart contents →
      ∀ fresh, ((t.after line looks).live.reload now line).2 = .ok fresh →
        (Project.load now line).2 = .ok (t.after line (looks ++ [now])).live.project := by
  intro h
  obtain ⟨hkept, hother⟩ :
      (begun.live.reload (shelf [ofSongs, ofLive]) playing).2 = .ok none ∧
      (Project.load (shelf [ofSongs, ofLive]) playing).2 ≠
        .ok (begun.after playing [shelf [ofSongs, ofLive]]).live.project := by
    decide +kernel
  obtain ⟨hfirst, hboth, -⟩ := inSession_shelves
  have hsession := List.forall_mem_cons.mpr ⟨hfirst, List.forall_mem_singleton.mpr hboth⟩
  exact hother (h playing (shelf [ofSongs]) (shelf [ofSongs, ofLive]) [] begun spoken
    start?_begun hsession hashesApart_spoken none hkept)

end TracedProject

end SongPreview
