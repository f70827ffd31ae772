import SongPreview.Proofs.Config.Paths
import SongPreview.Proofs.Machine.Naming
import SongPreview.Proofs.Watch.Recovering
import SongPreview.Proofs.Watch.Reloading

/-!
# Which changes are noticed

The files under watch are known by what their paths led to when they were taken under watch, the
files of a report by what its paths lead to when it comes. A path to nothing is known by its
spelling. So a change is noticed if and only if both paths are taken for the same place, each in
its time. A change of another file is never noticed; but a change of a file that was missing, under
a path that does not spell its place out, is missed.
-/

namespace SongPreview

namespace Path

variable {p q r : Path}

theorem same_comm (p q : Path) : p.same q = q.same p :=
  Bool.beq_comm

theorem same_trans (h : p.same q = true) (h' : q.same r = true) : p.same r = true :=
  beq_iff_eq.mpr ((beq_iff_eq.mp h).trans (beq_iff_eq.mp h'))

end Path

namespace Machine

variable {m before now : Machine} {p q r : Path} {place there : Location} {entry : Entry}

/-- Something is found under a path, or nothing is there. -/
theorem find_cases (m : Machine) (p : Path) :
    (∃ place entry, m.find p = .ok (place, entry)) ∨ m.exists? p = false := by
  cases hfind : m.find p with
  | ok found => exact .inl ⟨found.1, found.2, rfl⟩
  | error fault => exact .inr (by simp [exists?, hfind, Except.isOk, Except.toBool])

theorem exists_of_find (h : m.find p = .ok (place, entry)) : m.exists? p = true :=
  isOk_iff.mpr ⟨_, h⟩

/-- A path is taken for a place: something is found there, or nothing is found and the path spells
the place out. -/
def TakenFor (m : Machine) (p : Path) (place : Location) : Prop :=
  (∃ entry, m.find p = .ok (place, entry)) ∨
    m.exists? p = false ∧ (m.spelling p).same place.path = true

/-- Two paths, each in its time, lead to nothing and are spelled alike. -/
def SpelledAlike (before now : Machine) (r q : Path) : Prop :=
  before.exists? r = false ∧ now.exists? q = false ∧
    (before.spelling r).same (now.spelling q) = true

/-- The path `q` of a report is recognised as the path `r` that was taken under watch before: both
are taken for one place, or both lead to nothing and are spelled alike. -/
def Recognised (before now : Machine) (r q : Path) : Prop :=
  (∃ place, before.TakenFor r place ∧ now.TakenFor q place) ∨ SpelledAlike before now r q

theorem takenFor_of_find (h : m.find p = .ok (place, entry)) :
    m.TakenFor p there ↔ there = place := by
  constructor
  · rintro (⟨entry', hfind⟩ | ⟨hnone, -⟩)
    · exact (Prod.mk.inj (Except.ok.inj (hfind.symm.trans h))).1
    · rw [exists_of_find h] at hnone
      cases hnone
  · rintro rfl
    exact .inl ⟨entry, h⟩

theorem takenFor_of_not_exists (h : m.exists? p = false) :
    m.TakenFor p place ↔ (m.spelling p).same place.path = true := by
  constructor
  · rintro (⟨entry, hfind⟩ | ⟨-, hsame⟩)
    · rw [exists_of_find hfind] at h
      cases h
    · exact hsame
  · exact fun hsame => .inr ⟨h, hsame⟩

theorem Regular.spelled_of_find (hm : m.Regular) (h : m.find p = .ok (place, entry)) :
    ∀ name ∈ place, Tree.Spelled name :=
  hm.tree.spelled_of_ending (hm.ending_of_locate (find_ok_iff.mp h).1)

/-- A path is taken for a place if its absolute form is the path of the place. -/
theorem Regular.takenFor_iff (hm : m.Regular) (hplace : ∀ name ∈ place, Tree.Spelled name) :
    m.TakenFor p place ↔ (m.normalize p).same place.path = true := by
  rcases m.find_cases p with ⟨there, entry, hfind⟩ | hnone
  · rw [takenFor_of_find hfind, normalize_of_find hfind,
      Tree.path_same_path_iff (hm.spelled_of_find hfind) hplace, eq_comm]
  · rw [takenFor_of_not_exists hnone, normalize_of_not_exists hm hnone]

/-- Absolute forms from different times are compared by what they are taken for. -/
theorem same_normalize_iff (hbefore : before.Regular) (hnow : now.Regular) :
    (before.normalize r).same (now.normalize q) = true ↔ Recognised before now r q := by
  rcases before.find_cases r with ⟨place, entry, hr⟩ | hr
  · have hthere := exists_of_find hr
    rw [normalize_of_find hr, Path.same_comm, ← hnow.takenFor_iff (hbefore.spelled_of_find hr)]
    simp [Recognised, SpelledAlike, takenFor_of_find hr, hthere]
  · rcases now.find_cases q with ⟨place, entry, hq⟩ | hq
    · have hthere := exists_of_find hq
      rw [normalize_of_find hq, ← hbefore.takenFor_iff (hnow.spelled_of_find hq)]
      simp [Recognised, SpelledAlike, takenFor_of_find hq, hthere]
    · rw [normalize_of_not_exists hbefore hr, normalize_of_not_exists hnow hq]
      constructor
      · exact fun hsame => .inr ⟨hr, hq, hsame⟩
      · rintro (⟨place, hr', hq'⟩ | ⟨-, -, hsame⟩)
        · rw [takenFor_of_not_exists hr] at hr'
          rw [takenFor_of_not_exists hq, Path.same_comm] at hq'
          exact Path.same_trans hr' hq'
        · exact hsame

/-- The path `r`, taken under watch before, refers to a place: it leads there, and what it led to
before, if anything, was there, too. -/
structure RefersTo (before now : Machine) (r : Path) (place : Location) : Prop where
  leads : now.tree.locate now.workDir r = .ok place
  kept : ∀ found entry, before.find r = .ok (found, entry) → found = place

theorem refersTo_of_not_exists (hmissing : before.exists? r = false)
    (hleads : now.tree.locate now.workDir r = .ok place) : RefersTo before now r place where
  leads := hleads
  kept found entry hfind := by
    rw [exists_of_find hfind] at hmissing
    cases hmissing

/-- A path of a report is recognised as one that refers to a place if it leads there, and if both
paths are taken for the place or lead to nothing and are spelled alike. -/
theorem recognised_iff (hnow : now.Regular) (hworkDir : before.workDir = now.workDir)
    (hr : RefersTo before now r place) (hq : now.tree.locate now.workDir q = .ok there) :
    Recognised before now r q ↔ there = place ∧
      (before.TakenFor r place ∧ now.TakenFor q place ∨ SpelledAlike before now r q) := by
  have hspelling : before.spelling r = now.spelling r := by
    rw [spelling, spelling, workPath, workPath, hworkDir]
  have hplace := hnow.ending_of_locate hr.leads
  have hthere := hnow.ending_of_locate hq
  constructor
  · rintro (⟨x, hrx, hqx⟩ | halike)
    · rcases hrx with ⟨entry, hfind⟩ | ⟨hmissing, hout⟩
      · obtain rfl := hr.kept _ _ hfind
        refine ⟨?_, .inl ⟨.inl ⟨entry, hfind⟩, hqx⟩⟩
        rcases hqx with ⟨entry', hfind'⟩ | ⟨-, hout⟩
        · exact Except.ok.inj (hq.symm.trans (find_ok_iff.mp hfind').1)
        · exact hnow.eq_of_same_path hq hplace hout
      · have hrx : before.TakenFor r x := .inr ⟨hmissing, hout⟩
        rw [hspelling] at hout
        rcases hqx with ⟨entry', hfind'⟩ | ⟨hmissing', hout'⟩
        · obtain rfl := Except.ok.inj (hq.symm.trans (find_ok_iff.mp hfind').1)
          obtain rfl := hnow.eq_of_same_path hr.leads hthere hout
          exact ⟨rfl, .inl ⟨hrx, .inl ⟨entry', hfind'⟩⟩⟩
        -- both lead to nothing: the place that they spell out may be none that a way leads to
        · rw [Path.same_comm] at hout'
          have hsame := Path.same_trans hout hout'
          exact ⟨hnow.eq_of_same hr.leads hq hsame,
            .inr ⟨hmissing, hmissing', hspelling.symm ▸ hsame⟩⟩
    · exact ⟨hnow.eq_of_same hr.leads hq (hspelling ▸ halike.2.2), .inr halike⟩
  · rintro ⟨-, htaken | halike⟩
    · exact .inl ⟨place, htaken⟩
    · exact .inr halike

end Machine

namespace Project

variable {m : Machine} {line : CommandLine}

/-- The path under which the configuration file is looked at: the one that the search finds, or
where the file would be. -/
def configFile (m : Machine) (line : CommandLine) : Path :=
  (m.findUpward line.config m.workPath).getD (m.workPath.join line.config)

theorem normalize_configFile (m : Machine) (line : CommandLine) :
    m.normalize (configFile m line) = place m line := by
  rw [configFile, place]
  cases hfound : m.findUpward line.config m.workPath with
  | some path => rfl
  | none =>
    have habsolute : (m.workPath.join line.config).isAbsolute = true :=
      Path.isAbsolute_join Tree.isAbsolute_path
    have hmissing := Machine.not_exists_of_findUpward hfound
    rw [Option.getD_none, Machine.normalize_of_isAbsolute habsolute]
    cases hfind : m.find (m.workPath.join line.config) with
    | error fault => simp [Machine.canonical, hfind, bind, Except.bind, Except.toOption]
    | ok found => simp [Machine.exists?, hfind, Except.isOk, Except.toBool] at hmissing

end Project

namespace Feeder

variable {first source now m : Machine} {line : CommandLine} {project : Project} {song : Path}
  {verbose : Bool} {f start : Feeder} {looks : List (Machine × Look)}

/-- The song and the configuration file stay those of the start; the renderer's files are those of
the configuration that was loaded last, as they were found then. -/
structure WatchesFrom (start : Feeder) (source : Machine) (f : Feeder) : Prop where
  line : f.line = start.line
  song : f.song = start.song
  configPath : f.configPath = start.configPath
  loaded : (Project.load source start.line).2 = .ok f.live.project
  resources : f.resources = Watched.resourcesOf source f.active

theorem watchesFrom_new (hload : (Project.load first line).2 = .ok project) :
    let start := new first line (.start first project) song verbose
    WatchesFrom start first start where
  line := rfl
  song := rfl
  configPath := rfl
  loaded := hload
  resources := rfl

/-- What a look at the configuration loads is taken into use, with its files under watch. -/
theorem configChanged_watched (m : Machine) (f : Feeder) :
    (f.configChanged m true).1 = f ∨
      ∃ live, (f.live.reload m f.line).2 = .ok (some live) ∧
        (f.configChanged m true).1.live = live ∧ (f.configChanged m true).1.line = f.line ∧
        (f.configChanged m true).1.watched =
          ⟨f.song, f.configPath, Watched.resourcesOf m live.project.config.render⟩ := by
  rw [configChanged]
  rcases f.live.reload m f.line with ⟨console, fault | none | live⟩
  · exact .inl rfl
  · exact .inl rfl
  · obtain ⟨settings, latest, hkept⟩ := exists_foldl_keep
      (f.live.project.config.changeEvents m.time live.project.config f.latest)
      { f with live, resources := Watched.resourcesOf m live.project.config.render }
    dsimp only
    rw [hkept]
    exact .inr ⟨live, rfl, rfl, rfl, rfl⟩

/-- One look leaves what is watched, or takes what it loads under watch. -/
theorem WatchesFrom.look (h : WatchesFrom start source f) (m : Machine) (l : Look) :
    WatchesFrom start source (f.look m l).1 ∨ WatchesFrom start m (f.look m l).1 := by
  cases l with
  | song =>
    left
    rcases songChanged_cases m f with ⟨hsame, -⟩ | ⟨text, hread, -⟩
    · rw [Feeder.look, hsame]
      exact h
    · rw [Feeder.look, hread]
      exact ⟨h.line, h.song, h.configPath, h.loaded, h.resources⟩
  | config =>
    rcases configChanged_watched m f with hsame | ⟨live, hreload, hlive, hline, hwatched⟩
    · rw [Feeder.look, hsame]
      exact .inl h
    · right
      have hload := LiveProject.load_of_reload hreload
      rw [← hlive, h.line] at hload
      obtain ⟨hsong, hconfig, hresources⟩ := Watched.mk.inj hwatched
      exact ⟨hline.trans h.line, hsong.trans h.song, hconfig.trans h.configPath, hload,
        hresources.trans (by rw [active, Feeder.look, hlive])⟩

/-- After any looks the renderer's files are watched as they were found at one of them, or at the
start. -/
theorem WatchesFrom.after (h : WatchesFrom start source f) (looks : List (Machine × Look)) :
    ∃ source' ∈ source :: looks.map Prod.fst, WatchesFrom start source' (f.after looks) := by
  induction looks generalizing f source with
  | nil => exact ⟨source, List.mem_cons_self, h⟩
  | cons l looks ih =>
    rcases h.look l.1 l.2 with hkept | hfresh
    · obtain ⟨source', hmem, hafter⟩ := ih hkept
      refine ⟨source', ?_, hafter⟩
      rcases List.mem_cons.mp hmem with rfl | hmem
      · exact List.mem_cons_self
      · exact List.mem_cons_of_mem _ (List.mem_cons_of_mem _ hmem)
    · obtain ⟨source', hmem, hafter⟩ := ih hfresh
      exact ⟨source', List.mem_cons_of_mem _ hmem, hafter⟩

/-- A report sets a flag if some path of it is recognised as a file of the flag. -/
theorem touched_iff (hfirst : first.Regular) (hsource : source.Regular) (hnow : now.Regular)
    (song config : Path) (files : List Path) (change : FileChange) :
    let w : Watched :=
      ⟨first.normalize song, first.normalize config, files.map source.normalize⟩
    ((w.touched now change).song = true ↔ change.kind.counts = true ∧
      ∃ q ∈ change.paths, Machine.Recognised first now song q) ∧
    ((w.touched now change).config = true ↔ change.kind.counts = true ∧
      ∃ q ∈ change.paths, Machine.Recognised first now config q) ∧
    ((w.touched now change).resource = true ↔ change.kind.counts = true ∧
      ∃ q ∈ change.paths, ∃ r ∈ files, Machine.Recognised source now r q) := by
  cases hcounts : change.kind.counts with
  | false => simp [Watched.touched, hcounts]
  | true =>
    simp [Watched.touched, hcounts, Machine.same_normalize_iff hfirst hnow,
      Path.same_comm (now.normalize _), Machine.same_normalize_iff hsource hnow]

/-- **Which changes are noticed.** Whatever a feeder has looked at since its start, the song and
the configuration file are watched as they were found at the start, and the renderer's files as
they were found when the configuration in use was loaded; these are the files that this
configuration writes, each with its path resolved. A report sets a flag if and only if the content
may have changed and some path of it is recognised as one of the flag's files; so a report of
several paths sets the flags that its paths set, and any other kind of report sets none.

A path is recognised as one that refers to some place only if it leads to that place: no report of
other files sets a flag. But a path that leads there is recognised only if both are taken for the
place, each in its time. That is so if there was a file when the watch began and there is one now,
and for paths that spell the place out. A file that was missing and whose path has dots or links
on its way is not noticed when it is made. -/
theorem change_noticed_iff (hfirst : first.Regular)
    (hlooks : ∀ l ∈ looks, l.1.Regular ∧ l.1.workDir = first.workDir) (hnow : now.Regular)
    (hworkDir : now.workDir = first.workDir) (hload : (Project.load first line).2 = .ok project) :
    let f := (new first line (.start first project) song verbose).after looks
    ∃ source ∈ first :: looks.map Prod.fst, ∃ written,
      (Project.load source line).2 = .ok f.live.project ∧
      Project.written? source line = some written ∧
      f.active.resourceFiles =
        written.render.resourceFiles.map (Path.expand source.home f.live.project.root) ∧
      (∀ change : FileChange,
        ((f.watched.touched now change).song = true ↔ change.kind.counts = true ∧
          ∃ q ∈ change.paths, Machine.Recognised first now song q) ∧
        ((f.watched.touched now change).config = true ↔ change.kind.counts = true ∧
          ∃ q ∈ change.paths, Machine.Recognised first now (Project.configFile first line) q) ∧
        ((f.watched.touched now change).resource = true ↔ change.kind.counts = true ∧
          ∃ q ∈ change.paths, ∃ r ∈ f.active.resourceFiles, Machine.Recognised source now r q)) ∧
      ∀ before ∈ [first, source], ∀ (r q : Path) (place there : Location),
        Machine.RefersTo before now r place → now.tree.locate now.workDir q = .ok there →
          (Machine.Recognised before now r q ↔ there = place ∧
            (before.TakenFor r place ∧ now.TakenFor q place ∨
              Machine.SpelledAlike before now r q)) := by
  intro f
  have hstart : WatchesFrom (new first line (.start first project) song verbose) first
      (new first line (.start first project) song verbose) := watchesFrom_new hload
  obtain ⟨source, hmem, hwatches⟩ := hstart.after looks
  obtain ⟨hsource, hsourceDir⟩ : source.Regular ∧ source.workDir = first.workDir := by
    rcases List.mem_cons.mp hmem with rfl | hlook
    · exact ⟨hfirst, rfl⟩
    · obtain ⟨l, hl, rfl⟩ := List.mem_map.mp hlook
      exact hlooks l hl
  have hloaded : (Project.load source line).2 = .ok f.live.project := hwatches.loaded
  obtain ⟨written, hwritten, hproject⟩ := Project.exists_written hloaded
  have hsong : f.song = first.normalize song := hwatches.song
  have hconfig : f.configPath = first.normalize (Project.configFile first line) := by
    rw [hwatches.configPath, Project.normalize_configFile]
    exact Project.configPath_of_assemble (Project.load_ok_iff.mp hload).1
  have hwatched : f.watched = ⟨first.normalize song,
      first.normalize (Project.configFile first line),
      f.active.resourceFiles.map source.normalize⟩ := by
    rw [watched, hsong, hconfig, hwatches.resources, Watched.resourcesOf]
  refine ⟨source, hmem, written, hloaded, hwritten, ?_, fun change => ?_, ?_⟩
  · rw [active, hproject]
    exact (Config.filesOf_withCommand line.command _ _ written).resourceFiles
  · rw [hwatched]
    exact touched_iff hfirst hsource hnow song _ _ change
  · intro before hbefore r q place there hr hq
    refine Machine.recognised_iff hnow ?_ hr hq
    rcases List.mem_cons.mp hbefore with rfl | hbefore
    · exact hworkDir.symm
    · rw [List.mem_singleton.mp hbefore, hsourceDir, hworkDir]

/-- The command to watch a song. -/
private def listening : CommandLine where
  command := .watch ⟨"song.cho"⟩ {} none none none none

/-- A configuration that names two files which are not there yet. -/
private def prepared : Machine :=
  let m := Machine.configured
    "[render]\nconfigs = [\"setlists/../band.json\"]\ntask = \"print.json\"\n"
  m.withTree (m.tree.put ["setlists", "songs"] .directory)

/-- The project of this configuration. -/
private def preparedProject : Project where
  config := { render := {
    configs := [⟨"/songs/setlists/../band.json"⟩]
    task := some ⟨"/songs/print.json"⟩ } }
  configPath := ⟨"/songs/preview.toml"⟩
  root := ⟨"/songs"⟩

/-- Both files are there. -/
private def arrived : Machine :=
  prepared.withTree ((prepared.tree.put ["band.json", "songs"] (.file .empty false)).put
    ["print.json", "songs"] (.file .empty false))

/-- The feeder, after it has read the song. -/
private def audience : Feeder :=
  (new prepared listening (.start prepared preparedProject) ⟨"song.cho"⟩ false).after
    [(prepared, .song)]

private theorem load_prepared : (Project.load prepared listening).2 = .ok preparedProject := by
  decide +kernel

/-- The file whose path goes through another directory is missed when it is made, although its
path leads to it. The file whose path is plain is noticed. -/
theorem detour_unnoticed :
    (Project.load prepared listening).2 = .ok preparedProject ∧
    Machine.RefersTo prepared arrived ⟨"/songs/setlists/../band.json"⟩ ["band.json", "songs"] ∧
    (audience.watched.touched arrived ⟨.created, [⟨"/songs/band.json"⟩]⟩).resource = false ∧
    (audience.watched.touched arrived ⟨.created, [⟨"/songs/print.json"⟩]⟩).resource = true := by
  have hfirst : prepared.Regular := by decide +kernel
  have hnow : arrived.Regular := by decide +kernel
  have hlooks : ∀ l ∈ [(prepared, Look.song)],
      l.1.Regular ∧ l.1.workDir = prepared.workDir := by
    intro l hl
    rw [List.mem_singleton.mp hl]
    exact ⟨hfirst, rfl⟩
  obtain ⟨source, hsource, written, -, -, -, hflags, hnamed⟩ :=
    change_noticed_iff hfirst hlooks hnow rfl load_prepared
  obtain rfl : source = prepared := by simpa using hsource
  have hfiles : audience.active.resourceFiles =
      [⟨"/songs/setlists/../band.json"⟩, ⟨"/songs/print.json"⟩] := by
    decide +kernel
  have hnoticed (q : Path) :
      (audience.watched.touched arrived ⟨.created, [q]⟩).resource = true ↔
        Machine.Recognised prepared arrived ⟨"/songs/setlists/../band.json"⟩ q ∨
          Machine.Recognised prepared arrived ⟨"/songs/print.json"⟩ q := by
    have hresource : (audience.watched.touched arrived ⟨.created, [q]⟩).resource = true ↔
        ChangeKind.counts .created = true ∧ ∃ q' ∈ [q], ∃ r ∈ audience.active.resourceFiles,
          Machine.Recognised prepared arrived r q' :=
      (hflags ⟨.created, [q]⟩).2.2
    rw [hresource, hfiles]
    simp [ChangeKind.counts]
  have hmissing : ∀ r ∈ audience.active.resourceFiles, prepared.exists? r = false := by
    decide +kernel
  simp only [hfiles, List.forall_mem_cons] at hmissing
  obtain ⟨hnoBand, hnoPrint, -⟩ := hmissing
  have hband : Machine.RefersTo prepared arrived ⟨"/songs/setlists/../band.json"⟩
      ["band.json", "songs"] :=
    Machine.refersTo_of_not_exists hnoBand (by decide +kernel)
  have hprint : Machine.RefersTo prepared arrived ⟨"/songs/print.json"⟩ ["print.json", "songs"] :=
    Machine.refersTo_of_not_exists hnoPrint (by decide +kernel)
  have hbandFound : arrived.find ⟨"/songs/band.json"⟩ =
      .ok (["band.json", "songs"], .file .empty false) := by
    decide +kernel
  have hprintFound : arrived.find ⟨"/songs/print.json"⟩ =
      .ok (["print.json", "songs"], .file .empty false) := by
    decide +kernel
  have hnamedBy {r q : Path} {place there : Location} {entry : Entry}
      (hr : Machine.RefersTo prepared arrived r place)
      (hq : arrived.find q = .ok (there, entry)) :=
    hnamed prepared List.mem_cons_self r q place there hr (Machine.find_ok_iff.mp hq).1
  refine ⟨load_prepared, hband, ?_, ?_⟩
  · rw [← Bool.not_eq_true, hnoticed, hnamedBy hband hbandFound, hnamedBy hprint hbandFound]
    rintro (⟨-, ⟨htaken, -⟩ | ⟨-, hnone, -⟩⟩ | ⟨hplace, -⟩)
    · rw [Machine.takenFor_of_not_exists hnoBand] at htaken
      revert htaken
      decide +kernel
    · rw [Machine.exists_of_find hbandFound] at hnone
      cases hnone
    · revert hplace
      decide
  · rw [hnoticed, hnamedBy hprint hprintFound]
    refine .inr ⟨rfl, .inl ⟨?_, .inl ⟨_, hprintFound⟩⟩⟩
    rw [Machine.takenFor_of_not_exists hnoPrint]
    decide +kernel

/-- Not every change is noticed of a file that is under watch. -/
theorem not_every_change_noticed :
    ¬ ∀ (first now : Machine) (line : CommandLine) (project : Project) (song r q : Path)
      (place : Location) (kind : ChangeKind), first.Regular → now.Regular →
      now.workDir = first.workDir → (Project.load first line).2 = .ok project →
      r ∈ project.config.render.resourceFiles → Machine.RefersTo first now r place →
      now.tree.locate now.workDir q = .ok place → kind.counts = true →
      ((new first line (.start first project) song false).watched.touched now
        ⟨kind, [q]⟩).resource = true := by
  intro hall
  have hnoticed := hall prepared arrived listening preparedProject ⟨"song.cho"⟩
    ⟨"/songs/setlists/../band.json"⟩ ⟨"/songs/band.json"⟩ ["band.json", "songs"] .created
    (by decide +kernel) (by decide +kernel) rfl load_prepared (by decide +kernel)
    (Machine.refersTo_of_not_exists (by decide +kernel) (by decide +kernel)) (by decide +kernel) rfl
  revert hnoticed
  decide +kernel

end Feeder

end SongPreview
