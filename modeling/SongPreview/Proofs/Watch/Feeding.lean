import SongPreview.Watch.Feeder
import Mathlib.Data.List.Basic
import Mathlib.Data.List.Induction

/-!
# The settings of a feeder's edits

A feeder keeps the settings of its next edit apart from the configuration that it holds.
They are renewed by the edit that a changed configuration leads to, and there is no such
edit before the song was read for the first time. This file says exactly when the two
differ: a change of the settings came before the first reading, and none came since.
-/

namespace SongPreview

/-! ### Settings up to the spelling of paths -/

namespace Settings

theorem samePaths_iff {ps qs : List Path} :
    samePaths ps qs = true ↔ ps.map Path.components = qs.map Path.components := by
  induction ps generalizing qs with
  | nil => cases qs <;> simp only [samePaths, List.map_nil, List.map_cons, Bool.false_eq_true,
      List.nil_eq, reduceCtorEq]
  | cons p ps ih =>
    cases qs with
    | nil => simp only [samePaths, List.map_nil, List.map_cons, Bool.false_eq_true, reduceCtorEq]
    | cons q qs =>
      simp only [samePaths, Bool.and_eq_true, Path.same, beq_iff_eq, ih, List.map_cons,
        List.cons.injEq]

/-- What settings say, with every path as its components. -/
def meaning (s : Settings) : Settings × List (List Path.Component) × List (List Path.Component) :=
  ({ s with configs := [], task := none }, s.configs.map Path.components,
    s.task.toList.map Path.components)

theorem same_iff {a b : Settings} : a.same b = true ↔ a.meaning = b.meaning := by
  simp only [same, meaning, Bool.and_eq_true, beq_iff_eq, samePaths_iff, Prod.mk.injEq,
    Settings.mk.injEq, true_and]
  tauto

theorem same_refl (a : Settings) : a.same a = true :=
  same_iff.mpr rfl

theorem same_symm {a b : Settings} (h : a.same b = true) : b.same a = true :=
  same_iff.mpr (same_iff.mp h).symm

theorem same_trans {a b c : Settings} (h : a.same b = true) (h' : b.same c = true) :
    a.same c = true :=
  same_iff.mpr ((same_iff.mp h).trans (same_iff.mp h'))

theorem transpose_eq_of_same {a b : Settings} (h : a.same b = true) :
    a.transpose = b.transpose :=
  congrArg (fun meaning => meaning.1.transpose) (same_iff.mp h)

end Settings

/-! ### One look at the files -/

/-- What a feeder looks at: the song or the configuration. -/
inductive Look where
  | song
  | config
  deriving DecidableEq, Repr

namespace Feeder

variable {f : Feeder} {m : Machine} {d : Document}

/-- The settings that the configuration of a feeder gives. -/
def active (f : Feeder) : Settings :=
  f.live.project.config.render

/-- What a look at the files does to a feeder and sends to its scene. -/
def look (m : Machine) (f : Feeder) : Look → Feeder × Fed
  | .song => f.songChanged m true
  | .config => f.configChanged m true

/-- The feeder after some looks, each at the files as they then stand. -/
def after (f : Feeder) (looks : List (Machine × Look)) : Feeder :=
  looks.foldl (fun f l => (f.look l.1 l.2).1) f

theorem after_append_singleton (f : Feeder) (looks : List (Machine × Look)) (l : Machine × Look) :
    f.after (looks ++ [l]) = ((f.after looks).look l.1 l.2).1 := by
  rw [after, List.foldl_append]
  rfl

/-- A song that cannot be read changes nothing. Otherwise its text is sent with the settings
that the feeder keeps. -/
theorem songChanged_cases (m : Machine) (f : Feeder) :
    (f.songChanged m true).1 = f ∧ (f.songChanged m true).2.sent = [] ∨
      ∃ text, (f.songChanged m true).1 =
          { f with latest := some ⟨text, f.settings, .file f.song⟩ } ∧
        (f.songChanged m true).2.sent = [.edit ⟨text, f.settings, .file f.song⟩] := by
  unfold songChanged
  cases m.readText f.song with
  | error fault => exact Or.inl ⟨rfl, rfl⟩
  | ok text => exact Or.inr ⟨text, rfl, rfl⟩

/-- A feeder keeps only documents of edits. -/
theorem keep_of_ne_edit {event : Event} (h : ∀ d, event ≠ .edit d) (f : Feeder) :
    f.keep event = f := by
  cases event with
  | edit d => exact absurd rfl (h d)
  | _ => rfl

/-- Without a change of the settings, or without a document, no edit is sent. -/
theorem changeEvents_of_no_edit {time : Int} {old new : Config} {latest : Option Document}
    (h : new.render.same old.render = true ∨ latest = none) :
    ∀ d, .edit d ∉ old.changeEvents time new latest := by
  intro d hd
  simp only [Config.changeEvents, List.mem_append] at hd
  rcases hd with (hedit | hpane) | hnotice
  · rcases h with hsame | hnone
    · rw [if_pos hsame] at hedit
      cases hedit
    · rw [hnone] at hedit
      split at hedit <;> cases hedit
  · split at hpane
    · cases hpane
    · cases List.mem_singleton.mp hpane
  · split at hnotice
    · cases hnotice
    · cases List.mem_singleton.mp hnotice

/-- With changed settings the first event is the edit of the document, and no other follows. -/
theorem changeEvents_of_edit (time : Int) {old new : Config}
    (h : new.render.same old.render = false) (d : Document) :
    ∃ rest, old.changeEvents time new (some d) = .edit (d.withSettings new.render) :: rest ∧
      ∀ e, .edit e ∉ rest := by
  refine ⟨old.changeEvents time new none, ?_, changeEvents_of_no_edit (Or.inr rfl)⟩
  simp only [Config.changeEvents, h, Bool.false_eq_true, if_false, Option.toList_some,
    Option.toList_none, List.map_cons, List.map_nil, List.cons_append, List.nil_append]

/-- Events without an edit leave what a feeder keeps. -/
theorem foldl_keep_of_no_edit {events : List Event} (h : ∀ d, .edit d ∉ events) (f : Feeder) :
    events.foldl keep f = f := by
  induction events generalizing f with
  | nil => rfl
  | cons event events ih =>
    have hne : ∀ d, event ≠ .edit d := by
      rintro d rfl
      exact h d List.mem_cons_self
    rw [List.foldl_cons, keep_of_ne_edit hne, ih fun d hd => h d (List.mem_cons_of_mem _ hd)]

/-- What a feeder holds and keeps besides its files. -/
theorem configChanged_cases (m : Machine) (f : Feeder) :
    (f.configChanged m true).1 = f ∧ (∀ d, .edit d ∉ (f.configChanged m true).2.sent) ∨
      ∃ live resources, f.live.reload m f.line = ((f.live.reload m f.line).1, .ok (some live)) ∧
        (f.configChanged m true).1 =
          (f.live.project.config.changeEvents m.time live.project.config f.latest).foldl keep
            { f with live, resources } ∧
        (f.configChanged m true).2.sent =
          f.live.project.config.changeEvents m.time live.project.config f.latest := by
  rcases hreload : f.live.reload m f.line with ⟨console, reloaded⟩
  unfold configChanged
  rw [hreload]
  cases reloaded with
  | error fault =>
    refine Or.inl ⟨rfl, ?_⟩
    intro d hd
    simp [Fed.andThen, Fed.print, Fed.send] at hd
  | ok found =>
    cases found with
    | none => exact Or.inl ⟨rfl, nofun⟩
    | some live =>
      refine Or.inr ⟨live, _, rfl, rfl, ?_⟩
      simp [Fed.andThen, Fed.print, Fed.send]

/-- What one look does to the settings: they stay, and the configuration gives the same ones as
before; or the configuration has changed but no document is there to be edited; or the
settings are renewed with an edit. -/
theorem look_cases (m : Machine) (f : Feeder) (l : Look) :
    ((f.look m l).1.settings = f.settings ∧ (f.look m l).1.active.same f.active = true ∧
        ((f.look m l).1.latest = none → f.latest = none)) ∨
      (f.latest = none ∧ (f.look m l).1.latest = none ∧
        (f.look m l).1.settings = f.settings) ∨
      ((f.look m l).1.latest ≠ none ∧ (f.look m l).1.settings = (f.look m l).1.active ∧
        (f.look m l).1.active.same f.active = false) := by
  cases l with
  | song =>
    left
    rcases songChanged_cases m f with ⟨hsame, _⟩ | ⟨text, hread, _⟩
    · simp only [look, hsame, Settings.same_refl, imp_self, and_self]
    · rw [look, hread]
      exact ⟨rfl, Settings.same_refl _, nofun⟩
  | config =>
    rcases configChanged_cases m f with ⟨hsame, _⟩ | ⟨live, resources, _, hfolded, _⟩
    · left
      simp only [look, hsame, Settings.same_refl, imp_self, and_self]
    · simp only [look, hfolded]
      cases hchanged : live.project.config.render.same f.live.project.config.render with
      | true =>
        left
        rw [foldl_keep_of_no_edit (changeEvents_of_no_edit (Or.inl hchanged))]
        exact ⟨rfl, hchanged, id⟩
      | false =>
        right
        cases hlatest : f.latest with
        | none =>
          left
          rw [foldl_keep_of_no_edit (changeEvents_of_no_edit (Or.inr rfl))]
          exact ⟨rfl, rfl, rfl⟩
        | some d =>
          right
          obtain ⟨rest, hevents, hrest⟩ := changeEvents_of_edit m.time hchanged d
          rw [hevents, List.foldl_cons, foldl_keep_of_no_edit hrest]
          exact ⟨nofun, rfl, hchanged⟩

/-- An edit carries the settings that the feeder keeps after sending it. -/
theorem settings_of_sent {l : Look} (h : .edit d ∈ (f.look m l).2.sent) :
    d.settings = (f.look m l).1.settings := by
  cases l with
  | song =>
    rcases songChanged_cases m f with ⟨_, hsent⟩ | ⟨text, hread, hsent⟩
    · simp only [look, hsent] at h
      cases h
    · simp only [look, hsent, hread] at h ⊢
      cases List.mem_singleton.mp h
      rfl
  | config =>
    rcases configChanged_cases m f with ⟨_, hnone⟩ | ⟨live, resources, _, hfolded, hsent⟩
    · exact absurd h (hnone d)
    · simp only [look, hsent, hfolded] at h ⊢
      cases hchanged : live.project.config.render.same f.live.project.config.render with
      | true => exact absurd h (changeEvents_of_no_edit (Or.inl hchanged) d)
      | false =>
        cases hlatest : f.latest with
        | none =>
          rw [hlatest] at h
          exact absurd h (changeEvents_of_no_edit (Or.inr rfl) d)
        | some latest =>
          obtain ⟨rest, hevents, hrest⟩ := changeEvents_of_edit m.time hchanged latest
          rw [hlatest, hevents] at h
          rw [hevents, List.foldl_cons, foldl_keep_of_no_edit hrest]
          rcases List.mem_cons.mp h with heq | hmem
          · cases heq
            rfl
          · exact absurd hmem (hrest d)

/-! ### Runs of a feeder -/

/-- Before the song was read for the first time the configuration came to give other settings
than at the start, and it has given the same ones since. -/
def Forgotten (f : Feeder) (looks : List (Machine × Look)) : Prop :=
  ∃ before rest, looks = before ++ rest ∧ (f.after before).latest = none ∧
    (f.after before).active.same f.active = false ∧
    ∀ later, later <+: rest →
      (f.after (before ++ later)).active.same (f.after before).active = true

/-- As long as no song was read, the settings are those of the start. -/
theorem settings_after_of_unread {looks : List (Machine × Look)}
    (h : (f.after looks).latest = none) : (f.after looks).settings = f.settings := by
  induction looks using List.reverseRecOn with
  | nil => rfl
  | append_singleton looks l ih =>
    rw [after_append_singleton] at h ⊢
    rcases look_cases l.1 (f.after looks) l.2 with
      ⟨hkept, _, hunread⟩ | ⟨hunread, _, hkept⟩ | ⟨hread, _⟩
    · exact hkept.trans (ih (hunread h))
    · exact hkept.trans (ih hunread)
    · exact absurd h hread

/-- As long as the configuration gives the same settings, they stay. -/
theorem settings_after_of_same {rest : List (Machine × Look)}
    (h : ∀ later, later <+: rest → (f.after later).active.same f.active = true) :
    (f.after rest).settings = f.settings := by
  induction rest using List.reverseRecOn with
  | nil => rfl
  | append_singleton rest l ih =>
    have hrest := h rest (List.prefix_append rest [l])
    have hlast := h (rest ++ [l]) List.prefix_rfl
    rw [after_append_singleton] at hlast ⊢
    rcases look_cases l.1 (f.after rest) l.2 with ⟨hkept, _⟩ | ⟨_, _, hkept⟩ | ⟨_, _, hchanged⟩
    · exact hkept.trans (ih fun later hlater => h later (hlater.trans (List.prefix_append _ _)))
    · exact hkept.trans (ih fun later hlater => h later (hlater.trans (List.prefix_append _ _)))
    · rw [Settings.same_trans hlast (Settings.same_symm hrest)] at hchanged
      cases hchanged

theorem after_append (f : Feeder) (looks looks' : List (Machine × Look)) :
    f.after (looks ++ looks') = (f.after looks).after looks' :=
  List.foldl_append

/-- Whatever is looked at, a forgotten change goes on to be forgotten as long as the
configuration gives the same settings as before. -/
theorem Forgotten.append {looks : List (Machine × Look)} {l : Machine × Look}
    (h : f.Forgotten looks)
    (hsame : (f.after (looks ++ [l])).active.same (f.after looks).active = true) :
    f.Forgotten (looks ++ [l]) := by
  obtain ⟨before, rest, rfl, hunread, hchanged, hstays⟩ := h
  refine ⟨before, rest ++ [l], List.append_assoc _ _ _, hunread, hchanged, ?_⟩
  intro later hlater
  rcases List.prefix_concat_iff.mp hlater with rfl | hbefore
  · rw [← List.append_assoc]
    exact Settings.same_trans hsame (hstays rest List.prefix_rfl)
  · exact hstays later hbefore

/-- A forgotten change leaves the settings of the start, which are others than those of the
configuration. -/
theorem Forgotten.not_same {looks : List (Machine × Look)} (h : f.Forgotten looks)
    (hstart : f.settings = f.active) :
    (f.after looks).settings.same (f.after looks).active ≠ true := by
  obtain ⟨before, rest, rfl, hunread, hchanged, hstays⟩ := h
  simp only [after_append] at hstays ⊢
  have hsettings : ((f.after before).after rest).settings = f.active := by
    rw [settings_after_of_same hstays, settings_after_of_unread hunread, hstart]
  intro hsame
  rw [hsettings] at hsame
  have hback := Settings.same_trans hsame (hstays rest List.prefix_rfl)
  rw [Settings.same_symm hback] at hchanged
  cases hchanged

/-- Where the settings are others than those of the configuration, a change was forgotten. -/
theorem forgotten_of_not_same (hstart : f.settings = f.active) {looks : List (Machine × Look)}
    (h : (f.after looks).settings.same (f.after looks).active = false) : f.Forgotten looks := by
  induction looks using List.reverseRecOn with
  | nil =>
    change f.settings.same f.active = false at h
    rw [hstart, Settings.same_refl] at h
    cases h
  | append_singleton looks l ih =>
    have hlook := look_cases l.1 (f.after looks) l.2
    rw [← after_append_singleton] at hlook
    rcases hlook with ⟨hkept, hsame, _⟩ | ⟨hunread, hstill, hkept⟩ | ⟨_, hrenewed, _⟩
    · -- the change had been forgotten before this look
      refine Forgotten.append (ih ?_) hsame
      rw [← Bool.not_eq_true] at h ⊢
      intro hbefore
      rw [hkept] at h
      exact h (Settings.same_trans hbefore (Settings.same_symm hsame))
    · -- the song is still unread, so that this look is the last before the first reading
      refine ⟨looks ++ [l], [], (List.append_nil _).symm, hstill, ?_, ?_⟩
      · rw [← Bool.not_eq_true] at h ⊢
        intro hback
        rw [settings_after_of_unread hstill, hstart] at h
        exact h (Settings.same_symm hback)
      · intro later hlater
        rw [List.prefix_nil.mp hlater, List.append_nil]
        exact Settings.same_refl _
    · rw [hrenewed, Settings.same_refl] at h
      cases h

/-- **Settings of edits.** A feeder begins with a configuration and looks at the song and at the
configuration in any order, each time at the files as they then stand. An edit that it sends
carries the settings of the configuration that it then holds, up to the spelling of paths,
exactly if no change of them was forgotten: if the settings had changed before the song was read
for the first time and the configuration has given the same ones ever since, the edit carries
those of the start. -/
theorem edit_carries_active_iff (first : Machine) (line : CommandLine) (live : LiveProject)
    (song : Path) (verbose : Bool) (looks : List (Machine × Look)) (m : Machine) (l : Look)
    {d : Document}
    (hsent : .edit d ∈ (((new first line live song verbose).after looks).look m l).2.sent) :
    d.settings.same (((new first line live song verbose).after looks).look m l).1.active = true ↔
      ¬ (new first line live song verbose).Forgotten (looks ++ [(m, l)]) := by
  have hstart : (new first line live song verbose).settings =
      (new first line live song verbose).active := rfl
  rw [settings_of_sent hsent]
  have hafter := after_append_singleton (new first line live song verbose) looks (m, l)
  simp only at hafter
  rw [← hafter]
  constructor
  · exact fun hsame hforgotten => hforgotten.not_same hstart hsame
  · intro hnot
    by_contra hother
    rw [Bool.not_eq_true] at hother
    exact hnot (forgotten_of_not_same hstart hother)

/-- A machine with one directory of songs, in which the program works. -/
private def songbook (entries : List (Location × Entry)) : Machine where
  tree := ⟨(["songs"], .directory) :: entries⟩
  workDir := ["songs"]
  home := ⟨"/home"⟩
  tempDir := ⟨"/tmp"⟩
  searchPath := []
  time := 0

/-- A configuration file that transposes every song. -/
private def transposing : Location × Entry :=
  (["preview.toml", "songs"], .file "[render]\ntranspose = 2\n".toUTF8 false)

/-- A song. -/
private def heard : Location × Entry :=
  (["song.cho", "songs"], .file "[C]I heard".toUTF8 false)

/-- The command to watch the song. -/
private def watching : CommandLine where
  command := .watch ⟨"song.cho"⟩ {} none none none none

/-- The project without a configuration file. -/
private def unconfigured : Project :=
  ⟨{}, ⟨"/songs/preview.toml"⟩, ⟨"/songs"⟩⟩

/-- The configuration is written before the song. -/
private def configuredFirst : List (Machine × Look) :=
  [(songbook [], .song), (songbook [transposing], .config)]

/-- A feeder that began without a configuration and without a song. -/
private def expectant : Feeder :=
  new (songbook []) watching (.start (songbook []) unconfigured) ⟨"song.cho"⟩ false

/-- The song that is read late is sent with settings that do not transpose it. -/
private theorem song_read_late :
    .edit ⟨"[C]I heard", {}, .file ⟨"/songs/song.cho"⟩⟩ ∈
        ((expectant.after configuredFirst).look (songbook [transposing, heard]) .song).2.sent ∧
      ((expectant.after configuredFirst).look
        (songbook [transposing, heard]) .song).1.active.transpose = 2 := by
  decide +kernel

/-- The edit of a song that is written after its configuration carries the settings of the start,
although the feeder holds the configuration: its change was forgotten. -/
theorem first_edit_carries_old_settings :
    .edit ⟨"[C]I heard", {}, .file ⟨"/songs/song.cho"⟩⟩ ∈
        ((expectant.after configuredFirst).look (songbook [transposing, heard]) .song).2.sent ∧
      ((expectant.after configuredFirst).look
        (songbook [transposing, heard]) .song).1.active.transpose = 2 ∧
      expectant.Forgotten
        (configuredFirst ++ [(songbook [transposing, heard], .song)]) := by
  obtain ⟨hsent, hactive⟩ := song_read_late
  refine ⟨hsent, hactive, ?_⟩
  by_contra hnot
  have hsame := (edit_carries_active_iff (songbook []) watching
    (.start (songbook []) unconfigured) ⟨"song.cho"⟩ false configuredFirst
    (songbook [transposing, heard]) .song hsent).mpr hnot
  have htranspose := Settings.transpose_eq_of_same hsame
  exact absurd (htranspose.trans hactive) (by decide)

/-- Edits do not always carry the settings of the configuration in use. -/
theorem not_edits_always_active :
    ¬ ∀ (first : Machine) (line : CommandLine) (project : Project) (song : Path) (verbose : Bool)
        (looks : List (Machine × Look)) (m : Machine) (l : Look) (d : Document),
      (Project.load first line).2 = .ok project →
      .edit d ∈
        (((new first line (.start first project) song verbose).after looks).look m l).2.sent →
      d.settings.same
        (((new first line (.start first project) song verbose).after looks).look m l).1.active =
          true := by
  intro h
  have hload : (Project.load (songbook []) watching).2 = .ok unconfigured := by decide +kernel
  obtain ⟨hsent, hactive⟩ := song_read_late
  have hsame := h (songbook []) watching unconfigured ⟨"song.cho"⟩ false configuredFirst
    (songbook [transposing, heard]) .song _ hload hsent
  have htranspose := Settings.transpose_eq_of_same hsame
  exact absurd (htranspose.trans hactive) (by decide)

end Feeder

end SongPreview
