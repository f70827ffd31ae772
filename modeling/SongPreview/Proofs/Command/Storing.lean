import SongPreview.Command.Running
import SongPreview.Proofs.Machine.Replacing

/-!
# What comes of rendering a song once

The log is exported first, whatever the outcome is; then a page is stored, if there is one. The
command succeeds if and only if nothing has failed. Where something has, the output is what it was;
where nothing has, it is the page. Nothing else is written.
-/

namespace SongPreview.Command

variable {m after : Machine} {c : Config.Preview} {console : Console} {output song : Path}
  {outcome : Outcome} {log : List Diagnostic} {result : RenderResult} {place : Location}

/-! ### The log -/

/-- Exports the log, if that is wanted. -/
def exportLog (c : Config.Preview) (log : List Diagnostic) : Saving Unit :=
  match c.log with
  | none => pure ()
  | some path => Saving.writeLog path log

/-- The place that the log goes to, if it goes to any. -/
def logPlace? (c : Config.Preview) (m : Machine) : Option Location :=
  c.log.bind fun path => Saving.logPlace? path m

theorem changedAt_exportLog (c : Config.Preview) (log : List Diagnostic) (m : Machine) :
    Machine.ChangedAt (logPlace? c m) m (exportLog c log m).2 := by
  rw [exportLog, logPlace?]
  cases c.log with
  | none => exact .refl none m
  | some path => exact Saving.changedAt_writeLog path log m

/-- A log that was exported is in its file, unless it is lost. -/
theorem exportLog_ok {path : Path} (h : exportLog c log m = (.ok (), after))
    (hlog : c.log = some path) :
    after.Loses path ∨ ∃ place executable, logPlace? c m = some place ∧
      after.tree.get? place = some (.file (Diagnostic.formatLog log).toUTF8 executable) := by
  rw [exportLog, hlog] at h
  rw [logPlace?, hlog]
  exact Saving.writeLog_ok h

/-! ### The outcome -/

theorem storeOutcome_ok_iff : (storeOutcome m console output outcome).result = .ok () ↔
    ∃ page, outcome = .success page ∧ (Saving.replace output page m).1 = .ok () := by
  cases outcome with
  | success page =>
    simp only [storeOutcome, saving, Outcome.success.injEq, exists_eq_left']
    rcases Saving.replace output page m with ⟨fault | ⟨⟩, after⟩
    · simp [Done.failed]
    · simp [Done.ok]
  | failed code => cases code <;> simp [storeOutcome, Done.failed]
  | cancelled => simp [storeOutcome, Done.failed]

/-- A failure makes at most directories. -/
theorem changedAt_of_failure (h : (storeOutcome m console output outcome).result ≠ .ok ())
    (place? : Option Location) :
    Machine.ChangedAt place? m (storeOutcome m console output outcome).machine := by
  cases outcome with
  | success page =>
    simp only [storeOutcome, saving] at h ⊢
    rcases hreplace : Saving.replace output page m with ⟨fault | ⟨⟩, after⟩
    · obtain rfl := Saving.replace_error hreplace
      exact (Saving.madeAmong_madeFor output m).changedAt place?
    · rw [hreplace] at h
      exact absurd rfl h
  | failed code => cases code <;> exact .refl place? m
  | cancelled => exact .refl place? m

/-- A success puts the page at its place. -/
theorem machine_of_success (h : (storeOutcome m console output outcome).result = .ok ()) :
    ∃ page place, outcome = .success page ∧ Saving.pagePlace? output m = some place ∧
      (Saving.madeFor output m).tree.get? place ≠ some .directory ∧
      (storeOutcome m console output outcome).machine =
        (Saving.madeFor output m).withTree
          ((Saving.madeFor output m).tree.put place (.file page false)) := by
  obtain ⟨page, rfl, hsaved⟩ := storeOutcome_ok_iff.mp h
  rcases hreplace : Saving.replace output page m with ⟨fault | ⟨⟩, after⟩
  · rw [hreplace] at hsaved
    cases hsaved
  · obtain ⟨place, hplace, hfree, rfl⟩ := Saving.replace_ok hreplace
    refine ⟨page, place, rfl, hplace, hfree, ?_⟩
    simp only [storeOutcome, saving, hreplace, Done.ok]

/-- A place other than the output's holds what it held. -/
theorem held_storeOutcome
    (h : (storeOutcome m console output outcome).result = .ok () →
      Saving.pagePlace? output m ≠ some place) :
    (storeOutcome m console output outcome).machine.tree.held? place = m.tree.held? place := by
  by_cases hok : (storeOutcome m console output outcome).result = .ok ()
  · obtain ⟨page, there, -, hthere, -, hmachine⟩ := machine_of_success hok
    have hne : place ≠ there := fun heq => h hok (heq ▸ hthere)
    rw [hmachine]
    exact (Tree.held?_put_of_ne hne).trans ((Saving.madeAmong_madeFor output m).held place)
  · exact (changedAt_of_failure hok none).held place nofun

/-! ### The command -/

/-- What is left of a result that is stored: `m` are the files before, and `done` is the end. -/
structure Stored (c : Config.Preview) (output : Path) (result : RenderResult) (m : Machine)
    (done : Done) : Prop where
  /-- The command succeeds if the log was exported and there is a page that was saved, and only
  then. -/
  reported : done.result = .ok () ↔ (exportLog c result.log m).1 = .ok () ∧
    ∃ page, result.outcome = .success page ∧
      (Saving.replace output page (exportLog c result.log m).2).1 = .ok ()
  /-- Where it fails, paths lead to what they led to, but for the file of the log. -/
  untouched : done.result ≠ .ok () → ∀ p found, m.find p = .ok found →
    logPlace? c m ≠ some found.1 → done.machine.find p = .ok found
  /-- Where it succeeds, the output is the page. The path leads to it, unless it goes through a
  link that stood at its place. -/
  page : done.result = .ok () → ∃ page place, result.outcome = .success page ∧
    Saving.pagePlace? output (exportLog c result.log m).2 = some place ∧
    done.machine.tree.get? place = some (.file page false) ∧
    (done.machine.read output = .ok page ∨
      (∃ target, (Saving.madeFor output (exportLog c result.log m).2).tree.get? place =
        some (.link target)) ∧
      ((Saving.madeFor output (exportLog c result.log m).2).remove place).named? output = none)
  /-- A log that was exported is in its file, whatever the outcome is, unless the path of the log
  keeps nothing. -/
  logged : (exportLog c result.log m).1 = .ok () → ∀ path, c.log = some path →
    (exportLog c result.log m).2.Loses path ∨ ∃ place executable, logPlace? c m = some place ∧
      (Saving.pagePlace? output (exportLog c result.log m).2 ≠ some place →
        done.machine.tree.get? place =
          some (.file (Diagnostic.formatLog result.log).toUTF8 executable))
  /-- Every other place holds what it held. -/
  others : ∀ place, logPlace? c m ≠ some place →
    (done.result = .ok () →
      Saving.pagePlace? output (exportLog c result.log m).2 ≠ some place) →
    done.machine.tree.held? place = m.tree.held? place

/-- The log is exported before the outcome is stored. -/
theorem storeResult_eq (m : Machine) (console : Console) (c : Config.Preview) (song : Path)
    (result : RenderResult) :
    storeResult m console c song result =
      saving m console (exportLog c result.log) fun m =>
        storeOutcome m
          (console ++ if result.log = [] then {} else
            Console.ofOut (Diagnostic.summarize result.log ++ "\n"))
          (c.outputFor song) result.outcome := by
  rw [storeResult, exportLog]
  cases c.log <;> rfl

theorem stored_storeResult (m : Machine) (console : Console) (c : Config.Preview) (song : Path)
    (result : RenderResult) :
    Stored c (c.outputFor song) result m (storeResult m console c song result) := by
  have hchanged := changedAt_exportLog c result.log m
  rw [storeResult_eq, saving]
  generalize console ++ (if result.log = [] then {} else
    Console.ofOut (Diagnostic.summarize result.log ++ "\n")) = shown
  rcases hexport : exportLog c result.log m with ⟨fault | ⟨⟩, after⟩
  · rw [hexport] at hchanged
    have hfailed : (Done.failed after console (.save fault)).result ≠ .ok () := nofun
    refine ⟨?_, fun _ => hchanged.found, fun hok => absurd hok hfailed, ?_,
      fun place hlog _ => hchanged.held place hlog⟩
    · rw [hexport]
      exact ⟨fun hok => absurd hok hfailed, nofun⟩
    · rw [hexport]
      nofun
  · rw [hexport] at hchanged
    refine ⟨?_, ?_, ?_, ?_, ?_⟩
    · rw [hexport]
      exact storeOutcome_ok_iff.trans ⟨fun hsaved => ⟨rfl, hsaved⟩, And.right⟩
    · intro hfails p found hfound hne
      exact (hchanged.trans (changedAt_of_failure hfails _)).found p found hfound hne
    · intro hok
      obtain ⟨page, place, houtcome, hplace, hfree, hmachine⟩ := machine_of_success hok
      rw [hexport]
      refine ⟨page, place, houtcome, hplace, ?_, ?_⟩
      · rw [hmachine]
        exact Tree.get?_put_of_not_directory hfree
      · rw [hmachine]
        exact Machine.read_put_named hplace hfree
    · intro _ path hlog
      rw [hexport]
      refine (exportLog_ok hexport hlog).imp id ?_
      rintro ⟨place, executable, hplace, hwritten⟩
      refine ⟨place, executable, hplace, fun hpage => ?_⟩
      have hheld : after.tree.held? place = some (.file _ executable) :=
        Tree.held?_of_get? hwritten nofun
      exact Tree.get?_of_held? ((held_storeOutcome fun _ => hpage).trans hheld)
    · intro place hlog hpage
      rw [hexport] at hpage
      exact (held_storeOutcome hpage).trans (hchanged.held place hlog)

/-- What is read as a text is no directory. -/
theorem held?_of_readText {p : Path} {text : String} {entry : Entry}
    (h : m.readText p = .ok text) (hfound : m.find p = .ok (place, entry)) :
    m.tree.held? place = some entry := by
  refine Tree.held?_of_get? (Machine.find_ok_iff.mp hfound).2 ?_
  rintro rfl
  rw [Machine.readText, Machine.read, hfound] at h
  obtain ⟨_, hread, -⟩ := bind_eq_ok.mp h
  exact throw_ne_ok hread

theorem renderSong_of_error {host : Host} {config : Config} {verbose : Bool} {cancel : Option Nat}
    {fault : Fault} (h : m.readText (m.normalize song) = .error fault) :
    renderSong host m config verbose cancel song =
      .failed m {} (.unreadableSong (m.normalize song) fault) := by
  unfold renderSong
  simp only [h]

theorem renderSong_of_ok {host : Host} {config : Config} {verbose : Bool} {cancel : Option Nat}
    {text : String} (h : m.readText (m.normalize song) = .ok text) :
    ∃ console, renderSong host m config verbose cancel song =
      let rendered := Rendering.render host config.renderer
        (requestFor config (m.normalize song) text) cancel m
      storeResult rendered.machine console config.preview (m.normalize song) rendered.result := by
  unfold renderSong
  simp only [h]
  exact ⟨_, rfl⟩

/-- **The outcome is reported and stored.** For every host, every configuration and every time of a
cancellation: a song that cannot be read is an error, and nothing changes. A song that can be read
is rendered, and of the files that the renderer left, the log and the output alone are written: the
log if it is wanted, whatever the outcome is; the output if and only if the command succeeds, and
then it is the page. A song that the renderer left alone stays as it is, unless it is the log or the
output itself. -/
theorem outcome_reported_and_stored (host : Host) (m : Machine) (config : Config) (verbose : Bool)
    (cancel : Option Nat) (song : Path) :
    let path := m.normalize song
    let output := config.preview.outputFor path
    let done := renderSong host m config verbose cancel song
    (∀ fault, m.readText path = .error fault →
      done.result = .error (.unreadableSong path fault) ∧ done.machine = m) ∧
    ∀ text, m.readText path = .ok text →
      let rendered :=
        Rendering.render host config.renderer (requestFor config path text) cancel m
      let logged := (exportLog config.preview rendered.result.log rendered.machine).2
      Stored config.preview output rendered.result rendered.machine done ∧
        ∀ place entry, m.find path = .ok (place, entry) →
          rendered.machine.tree.get? place = some entry →
          logPlace? config.preview rendered.machine ≠ some place →
          (done.result = .ok () → Saving.pagePlace? output logged ≠ some place) →
          done.machine.tree.get? place = some entry := by
  intro path output done
  constructor
  · intro fault hread
    have hdone : done = .failed m {} (.unreadableSong path fault) := renderSong_of_error hread
    rw [hdone]
    exact ⟨rfl, rfl⟩
  · intro text hread rendered logged
    have hdone : ∃ console, done =
        storeResult rendered.machine console config.preview path rendered.result :=
      renderSong_of_ok hread
    obtain ⟨console, hdone⟩ := hdone
    have hstored : Stored config.preview output rendered.result rendered.machine done := by
      rw [hdone]
      exact stored_storeResult ..
    refine ⟨hstored, fun place entry hfound halone hlog hpage => ?_⟩
    have hentry : entry ≠ .directory := by
      have hheld := held?_of_readText hread hfound
      exact of_decide_eq_true (Option.filter_eq_some_iff.mp hheld).2
    have hheld := (hstored.others place hlog hpage).trans (Tree.held?_of_get? halone hentry)
    exact Tree.get?_of_held? hheld

/-- A machine with a song, an old page and a renderer. -/
private def musicStand : Machine where
  tree := ⟨[(["songs"], .directory), (["song.cho", "songs"], .file "[C]I heard".toUTF8 false),
    (["song.pdf", "songs"], .file "old".toUTF8 false), (["tmp"], .directory),
    (["bin"], .directory), (["chordpro", "bin"], .tool "chordpro")]⟩
  workDir := ["songs"]
  home := ⟨"/home"⟩
  tempDir := ⟨"/tmp"⟩
  searchPath := [⟨"/bin"⟩]
  time := 0

/-- A host whose programs write a page and leave the files alone. -/
private def press : Host where
  start m _ := .ok ⟨7, fun _ =>
    ⟨[⟨1, "page".toUTF8⟩], [], some (2, .ok (.exited 0)), some 2, some 2, m.tree⟩⟩

/-- A configuration that wants a log. -/
private def logging (command : List String) : Config :=
  { renderer := { command }, preview := { log := some ⟨"logs/song.log"⟩ } }

/-- A rendering that goes well writes a page and an empty log. -/
example :
    let done := renderSong press musicStand (logging ["chordpro"]) false none ⟨"song.cho"⟩
    done.result = .ok () ∧ done.machine.seen ⟨"song.pdf"⟩ = some "page".toUTF8 ∧
      done.machine.seen ⟨"logs/song.log"⟩ = some "".toUTF8 := by
  decide +kernel

/-- The end of a rendering without a renderer. -/
private def pressless : Done :=
  renderSong press musicStand (logging ["pdfchord"]) false none ⟨"song.cho"⟩

/-- Where the renderer is missing, the log says so, and the old page stays. -/
theorem missing_renderer_logged :
    pressless.result = .error .renderFailed ∧
      pressless.machine.find ⟨"song.pdf"⟩ =
        .ok (["song.pdf", "songs"], .file "old".toUTF8 false) ∧
      (∃ executable, pressless.machine.tree.get? ["song.log", "logs", "songs"] =
        some (.file ("00:00:00 error   renderer `pdfchord` not found: " ++
          "cannot find binary path\n").toUTF8 executable)) ∧
      pressless.machine.tree.get? ["song.cho", "songs"] =
        some (.file "[C]I heard".toUTF8 false) := by
  have hread : musicStand.readText (musicStand.normalize ⟨"song.cho"⟩) = .ok "[C]I heard" := by
    decide +kernel
  have hfails : pressless.result = .error .renderFailed := by decide +kernel
  have hfailed : pressless.result ≠ .ok () := by
    rw [hfails]
    nofun
  have hpressless : renderSong press musicStand (logging ["pdfchord"]) false none ⟨"song.cho"⟩ =
      pressless := rfl
  obtain ⟨-, hrendered⟩ := outcome_reported_and_stored press musicStand (logging ["pdfchord"])
    false none ⟨"song.cho"⟩
  rw [hpressless] at hrendered
  obtain ⟨hstored, hsong⟩ := hrendered _ hread
  refine ⟨hfails, ?_, ?_, ?_⟩
  · exact hstored.untouched hfailed ⟨"song.pdf"⟩ (["song.pdf", "songs"], .file "old".toUTF8 false)
      (by decide +kernel) (by decide +kernel)
  · have hlog := (hstored.logged (by decide +kernel) ⟨"logs/song.log"⟩ rfl).resolve_left
      (by decide +kernel)
    obtain ⟨place, executable, hplace, hlog⟩ := hlog
    obtain rfl : ["song.log", "logs", "songs"] = place :=
      Option.some.inj ((by decide +kernel : logPlace? _ _ = some _).symm.trans hplace)
    refine ⟨executable, (hlog (by decide +kernel)).trans ?_⟩
    have hformat : Diagnostic.formatLog (Rendering.render press (logging ["pdfchord"]).renderer
        (requestFor (logging ["pdfchord"]) (musicStand.normalize ⟨"song.cho"⟩) "[C]I heard") none
        musicStand).result.log = "00:00:00 error   renderer `pdfchord` not found: " ++
          "cannot find binary path\n" := by
      decide +kernel
    rw [hformat]
  · exact hsong ["song.cho", "songs"] (.file "[C]I heard".toUTF8 false) (by decide +kernel)
      (by decide +kernel) (by decide +kernel) fun hok => absurd hok hfailed

end SongPreview.Command
