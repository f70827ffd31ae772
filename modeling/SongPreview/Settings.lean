import SongPreview.Path

/-!
# Render settings

What a song's owner can choose about rendering. The definitions handed to the
renderer are kept in the order of their keys, so two ways of writing the same
settings are equal.
-/

namespace SongPreview

/-- Named values, in the order of their names, each name once. -/
structure Defines where
  entries : List (String × String)
  sorted : entries.Pairwise fun a b => a.1 < b.1
  deriving DecidableEq

namespace Defines

/-- No definitions. -/
def empty : Defines := ⟨[], .nil⟩

instance : Inhabited Defines := ⟨empty⟩

instance : Repr Defines where
  reprPrec d n := reprPrec d.entries n

/-- Puts a value in its place in a sorted list, over the one of the same name. -/
def place (name value : String) : List (String × String) → List (String × String)
  | [] => [(name, value)]
  | entry :: rest =>
    if name < entry.1 then (name, value) :: entry :: rest
    else if name = entry.1 then (name, value) :: rest
    else entry :: place name value rest

theorem name_of_mem_place {name value : String} {entries : List (String × String)}
    {entry : String × String} (h : entry ∈ place name value entries) :
    entry.1 = name ∨ entry ∈ entries := by
  induction entries with
  | nil => simp_all [place]
  | cons first rest ih =>
    simp only [place] at h
    split at h
    · simp only [List.mem_cons] at h ⊢
      rcases h with rfl | h
      · exact .inl rfl
      · exact .inr h
    · split at h
      · simp only [List.mem_cons] at h ⊢
        rcases h with rfl | h
        · exact .inl rfl
        · exact .inr (.inr h)
      · simp only [List.mem_cons] at h ⊢
        rcases h with rfl | h
        · exact .inr (.inl rfl)
        · exact (ih h).imp_right .inr

theorem sorted_place {name value : String} {entries : List (String × String)}
    (h : entries.Pairwise fun a b => a.1 < b.1) :
    (place name value entries).Pairwise fun a b => a.1 < b.1 := by
  induction entries with
  | nil => simp [place]
  | cons first rest ih =>
    simp only [List.pairwise_cons] at h
    simp only [place]
    split
    · next hlt =>
      simp only [List.pairwise_cons, List.mem_cons]
      refine ⟨?_, h.1, h.2⟩
      rintro a (rfl | ha)
      · exact hlt
      · exact String.lt_trans hlt (h.1 a ha)
    · next hnot =>
      split
      · next heq =>
        simp only [List.pairwise_cons]
        exact ⟨fun a ha => heq ▸ h.1 a ha, h.2⟩
      · next hne =>
        simp only [List.pairwise_cons]
        refine ⟨fun a ha => ?_, ih h.2⟩
        rcases name_of_mem_place ha with heq | hmem
        · rw [heq]
          rcases Std.lt_trichotomy first.1 name with hlt | heq | hgt
          · exact hlt
          · exact absurd heq.symm hne
          · exact absurd hgt hnot
        · exact h.1 a hmem

/-- The definitions with one more, which replaces one of the same name. -/
def insert (d : Defines) (name value : String) : Defines :=
  ⟨place name value d.entries, sorted_place d.sorted⟩

/-- The definitions of a list, where a later one replaces an earlier one. -/
def ofList (entries : List (String × String)) : Defines :=
  entries.foldl (fun d entry => d.insert entry.1 entry.2) empty

end Defines

/-- The choices about rendering, with their defaults. -/
structure Settings where
  /-- The name of the paper size. -/
  paper : Option String := none
  /-- Semitones to transpose by. -/
  transpose : Int := 0
  /-- The system of note names. -/
  noteNames : Option String := none
  /-- Whether chord diagrams are printed. -/
  diagrams : Bool := true
  /-- Further configuration files of the renderer, in order. -/
  configs : List Path := []
  /-- A configuration file that is applied after the others. -/
  task : Option Path := none
  /-- Single items of the renderer's configuration. -/
  defines : Defines := Defines.empty
  /-- Arguments that are passed on as they are. -/
  extraArguments : List String := []
  deriving DecidableEq, Repr, Inhabited

namespace Settings

/-- The settings with every path read from inside `root`. -/
def resolve (home root : Path) (s : Settings) : Settings :=
  { s with
    configs := s.configs.map (Path.expand home root)
    task := s.task.map (Path.expand home root) }

/-- The files that the renderer reads beside the song. -/
def resourceFiles (s : Settings) : List Path :=
  s.configs ++ s.task.toList

/-- Whether two lists of paths name the same paths in the same order. -/
def samePaths : List Path → List Path → Bool
  | [], [] => true
  | p :: ps, q :: qs => p.same q && samePaths ps qs
  | _, _ => false

/-- Whether two settings agree, up to the spelling of paths. -/
def same (a b : Settings) : Bool :=
  a.paper == b.paper && a.transpose == b.transpose && a.noteNames == b.noteNames &&
    a.diagrams == b.diagrams && samePaths a.configs b.configs &&
    samePaths a.task.toList b.task.toList && a.defines == b.defines &&
    a.extraArguments == b.extraArguments

/-- A text that was given and is not empty. -/
def nonempty? (s : Option String) : Option String :=
  s.filter (· ≠ "")

/-- The renderer's arguments for the settings. -/
def arguments (s : Settings) : List String :=
  s.resourceFiles.map (fun p => "--config=" ++ p.text) ++
  (nonempty? s.noteNames).toList.map ("--config=notes:" ++ ·) ++
  (if s.transpose = 0 then [] else ["--transpose=" ++ toString s.transpose]) ++
  (if s.diagrams then [] else ["--no-chord-grids"]) ++
  (nonempty? s.paper).toList.map ("--define=pdf.papersize=" ++ ·) ++
  s.defines.entries.map (fun d => "--define=" ++ d.1 ++ "=" ++ d.2) ++
  s.extraArguments

/-- All arguments of a rendering that reads its song from `input`. -/
def renderArguments (s : Settings) (input : String) : List String :=
  ["--generate=PDF", "--output=-"] ++ s.arguments ++ [input]

end Settings

end SongPreview
