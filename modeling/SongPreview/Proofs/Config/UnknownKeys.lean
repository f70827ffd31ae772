import SongPreview.Proofs.Config.Layers
import SongPreview.Proofs.Toml.Keys
import Mathlib.Data.List.Infix

/-!
# Keys that nothing knows

A configuration file may hold keys that no section defines. This file compares what is named as
unknown with the keys of the document's tree: exactly the outermost of them are named, in the
order of the tree, and the configuration is the same without them. A value that is told under a
key, or in its place of an array, never reaches another field.
-/

namespace SongPreview

namespace Toml

open Config (dateKey)

variable {entries : List (String × Value)} {key : String} {v : Value} {path : List String}
  {defined : List String → Bool}

/-! ### Keys of a tree -/

mutual

/-- The keys in a value, each behind the keys around it, in the order of the document. What stands
in an array has no key. A date appears as a table with one key. -/
def Value.keyPaths : Value → List (List String)
  | .table entries => keyPaths entries
  | .dateTime _ => [[dateKey]]
  | _ => []

/-- The keys in the entries of a table. -/
def keyPaths : List (String × Value) → List (List String)
  | [] => []
  | (key, v) :: rest => [key] :: v.keyPaths.map (key :: ·) ++ keyPaths rest

end

mutual

/-- A value without the keys that are not defined, and without what they hold. -/
def Value.kept (defined : List String → Bool) : Value → Value
  | .table entries => .table (kept defined entries)
  | .dateTime s => if defined [dateKey] then .dateTime s else .table []
  | v => v

/-- The entries of a table whose keys are defined, and of these what is defined. -/
def kept (defined : List String → Bool) : List (String × Value) → List (String × Value)
  | [] => []
  | (key, v) :: rest =>
    if defined [key] then (key, v.kept fun path => defined (key :: path)) :: kept defined rest
    else kept defined rest

end

/-- A key is not defined, but every key around it is. -/
def Outermost (defined : List String → Bool) (path : List String) : Prop :=
  defined path = false ∧
    ∀ outer, outer <+: path → outer ≠ [] → outer ≠ path → defined outer = true

instance (defined : List String → Bool) : DecidablePred (Outermost defined) := fun path =>
  decidable_of_iff (defined path = false ∧
    ∀ outer ∈ path.inits, outer ≠ [] → outer ≠ path → defined outer = true) (by
      simp only [List.mem_inits, Outermost])

theorem outermost_singleton : Outermost defined [key] ↔ defined [key] = false := by
  refine and_iff_left fun outer houter hne hproper => ?_
  rcases List.prefix_cons_iff.mp houter with rfl | ⟨rest, rfl, hrest⟩
  · exact absurd rfl hne
  · exact absurd (by rw [List.prefix_nil.mp hrest]) hproper

theorem outermost_cons (hpath : path ≠ []) : Outermost defined (key :: path) ↔
    defined [key] = true ∧ Outermost (fun path => defined (key :: path)) path := by
  constructor
  · rintro ⟨hnot, houter⟩
    refine ⟨houter [key] (List.prefix_append [key] path) (by simp) (by simpa using hpath.symm),
      hnot, fun outer hprefix _ hproper => ?_⟩
    exact houter (key :: outer) (List.cons_prefix_cons.mpr ⟨rfl, hprefix⟩) (by simp)
      (by simpa using hproper)
  · rintro ⟨hkey, hnot, houter⟩
    refine ⟨hnot, fun outer hprefix hne hproper => ?_⟩
    rcases List.prefix_cons_iff.mp hprefix with rfl | ⟨rest, rfl, hrest⟩
    · exact absurd rfl hne
    · by_cases hempty : rest = []
      · rwa [hempty]
      · exact houter rest hrest hempty fun heq => hproper (by rw [heq])

theorem ne_nil_of_mem_entries (h : path ∈ keyPaths entries) : path ≠ [] := by
  induction entries with
  | nil => cases h
  | cons entry rest ih =>
    rw [keyPaths, List.cons_append, List.mem_cons, List.mem_append, List.mem_map] at h
    rcases h with rfl | ⟨_, -, rfl⟩ | h
    · simp
    · simp
    · exact ih h

theorem ne_nil_of_mem_keyPaths (h : path ∈ v.keyPaths) : path ≠ [] := by
  unfold Value.keyPaths at h
  split at h
  · exact ne_nil_of_mem_entries h
  · simp_all
  · cases h

/-- The outermost undefined keys of a value. -/
def Value.undefinedKeys (defined : List String → Bool) (v : Value) : List (List String) :=
  v.keyPaths.filter (Outermost defined)

/-- An undefined key hides what it holds; below a defined one the search goes on. -/
theorem undefinedKeys_cons (rest : List (String × Value)) :
    Value.undefinedKeys defined (.table ((key, v) :: rest)) =
      (if defined [key] then
        (v.undefinedKeys fun path => defined (key :: path)).map (key :: ·) else [[key]]) ++
      Value.undefinedKeys defined (.table rest) := by
  have hinner : (v.keyPaths.map (key :: ·)).filter (Outermost defined) =
      (v.keyPaths.filter fun path => defined [key] ∧
        Outermost (fun path => defined (key :: path)) path).map (key :: ·) := by
    rw [List.filter_map]
    congr 1
    refine List.filter_congr fun path hpath => ?_
    simp only [Function.comp_apply, outermost_cons (ne_nil_of_mem_keyPaths hpath)]
  simp only [Value.undefinedKeys, Value.keyPaths, keyPaths, List.cons_append, List.filter_cons,
    List.filter_append, hinner, outermost_singleton]
  cases hkey : defined [key] with
  | true => simp
  | false => simp

/-- Nothing is outermost where every key is defined. -/
theorem undefinedKeys_eq_nil (h : ∀ path ∈ v.keyPaths, defined path = true) :
    v.undefinedKeys defined = [] := by
  refine List.filter_eq_nil_iff.mpr fun path hpath houtermost => ?_
  have hnot := (of_decide_eq_true houtermost).1
  rw [h path hpath] at hnot
  cases hnot

/-! ### What is kept of a tree -/

/-- Where each key is there once, every entry is found. -/
theorem find?_of_mem (once : (entries.map Prod.fst).Nodup) (h : (key, v) ∈ entries) :
    find? entries key = some v := by
  induction entries with
  | nil => cases h
  | cons entry rest ih =>
    rw [List.map_cons, List.nodup_cons] at once
    rcases List.mem_cons.mp h with rfl | hrest
    · simp [find?]
    · have hne : entry.1 ≠ key := fun heq => once.1 (List.mem_map.mpr ⟨_, hrest, heq.symm⟩)
      simpa [find?, hne] using ih once.2 hrest

theorem kept_eq (defined : List String → Bool) (entries : List (String × Value)) :
    kept defined entries = (entries.filter fun entry => defined [entry.1]).map fun entry =>
      (entry.1, entry.2.kept fun path => defined (entry.1 :: path)) := by
  induction entries with
  | nil => rfl
  | cons entry rest ih =>
    rw [kept, ih, List.filter_cons]
    split <;> rfl

theorem find?_kept (hkey : defined [key] = true) : find? (kept defined entries) key =
    (find? entries key).map (Value.kept fun path => defined (key :: path)) := by
  induction entries with
  | nil => rfl
  | cons entry rest ih =>
    obtain ⟨first, v⟩ := entry
    by_cases hfirst : first = key
    · subst hfirst
      simp [kept, hkey, find?]
    · rw [kept]
      split
      · simpa [find?, hfirst] using ih
      · simpa [find?, hfirst] using ih

mutual

/-- Every key that is kept is defined. -/
theorem Value.defined_of_mem_kept (defined : List String → Bool) (v : Value) :
    ∀ path ∈ (v.kept defined).keyPaths, defined path = true := by
  intro path hpath
  match v with
  | .table entries => exact Toml.defined_of_mem_kept defined entries path hpath
  | .dateTime _ =>
    rw [Value.kept] at hpath
    split at hpath
    · next hdate =>
      obtain rfl : path = [dateKey] := by simpa [Value.keyPaths] using hpath
      exact hdate
    · cases hpath
  | .text _ | .integer _ | .decimal | .boolean _ | .array _ => cases hpath

theorem defined_of_mem_kept (defined : List String → Bool) (entries : List (String × Value)) :
    ∀ path ∈ keyPaths (kept defined entries), defined path = true := by
  intro path hpath
  match entries with
  | [] => cases hpath
  | (key, v) :: rest =>
    rw [kept] at hpath
    split at hpath
    · next hkey =>
      rw [keyPaths, List.cons_append, List.mem_cons, List.mem_append, List.mem_map] at hpath
      rcases hpath with rfl | ⟨inner, hinner, rfl⟩ | hrest
      · exact hkey
      · exact Value.defined_of_mem_kept _ v inner hinner
      · exact defined_of_mem_kept defined rest path hrest
    · exact defined_of_mem_kept defined rest path hpath

end

mutual

/-- Where every key is defined, everything is kept. -/
theorem Value.kept_eq_self {defined : List String → Bool} {v : Value}
    (h : ∀ path ∈ v.keyPaths, defined path = true) : v.kept defined = v := by
  match v with
  | .table entries => exact congrArg Value.table (Toml.kept_eq_self h)
  | .dateTime s => exact if_pos (h [dateKey] (by simp [Value.keyPaths]))
  | .text _ | .integer _ | .decimal | .boolean _ | .array _ => rfl

theorem kept_eq_self {defined : List String → Bool} {entries : List (String × Value)}
    (h : ∀ path ∈ keyPaths entries, defined path = true) : kept defined entries = entries := by
  match entries with
  | [] => rfl
  | (key, v) :: rest =>
    simp only [keyPaths, List.cons_append, List.forall_mem_cons, List.forall_mem_append,
      List.forall_mem_map] at h
    rw [kept, if_pos h.1, Value.kept_eq_self h.2.1, kept_eq_self h.2.2]

end

theorem Value.Keyed.kept (h : v.Keyed) (defined : List String → Bool) :
    (v.kept defined).Keyed := by
  induction h generalizing defined with
  | @scalar v hscalar =>
    cases v with
    | dateTime s =>
      rw [Value.kept]
      split
      · exact .scalar rfl
      · exact .table List.nodup_nil nofun
    | table _ | array _ => cases hscalar
    | _ => exact .scalar rfl
  | array inner _ => exact .array inner
  | table once _ ih =>
    rw [Value.kept, kept_eq]
    refine .table ?_ fun entry hentry => ?_
    · rw [List.map_map]
      exact (List.filter_sublist.map Prod.fst).nodup once
    · obtain ⟨found, hfound, rfl⟩ := List.mem_map.mp hentry
      exact ih found (List.mem_of_mem_filter hfound) _

end Toml

namespace Config

open Toml (Value)

variable {α : Type} {entries : List (String × Value)} {c : Config} {v w : Value}
  {path : List String} {defined : List String → Bool} {field : String → Option Value}
  {sect : String × List String} {name : String}

/-! ### Keys that are defined -/

/-- A key that the sections define: a section, one of its fields, any definition for the renderer,
or the word of a choice that is written as a table. -/
def isDefined : List String → Bool
  | [sect] => sections.any fun s => s.1 = sect
  | [sect, name] => sections.any fun s => s.1 = sect ∧ name ∈ s.2
  | ["render", "defines", _] => true
  | ["renderer", "input", word] => (InputMode.ofName? word).isSome
  | ["preview", "pane", word] => (Pane.ofName? word).isSome
  | _ => false

theorem isDefined_section (h : sect ∈ sections) : isDefined [sect.1] = true := by
  rw [isDefined, List.any_eq_true]
  exact ⟨sect, h, by simp⟩

theorem isDefined_field (h : sect ∈ sections) (name : String) :
    isDefined [sect.1, name] = decide (name ∈ sect.2) := by
  simp only [sections, List.mem_cons, List.not_mem_nil, or_false] at h
  rcases h with rfl | rfl | rfl | rfl <;> simp [isDefined, sections]

/-! ### Values of fields -/

/-- A value that is read holds defined keys only. -/
def Settles (defined : List String → Bool) (read : Value → Option α) : Prop :=
  ∀ v x, read v = some x → ∀ path ∈ v.keyPaths, defined path = true

/-- A reader that takes neither tables nor dates reads no keys. -/
theorem settles_of_keyless {read : Value → Option α}
    (htable : ∀ entries, read (.table entries) = none)
    (hdate : ∀ s, read (.dateTime s) = none) : Settles defined read := by
  intro v x h
  cases v with
  | table entries => cases (htable entries).symm.trans h
  | dateTime s => cases (hdate s).symm.trans h
  | _ => exact List.forall_mem_nil _

theorem settles_optional {read : Value → Option α} (h : Settles defined read) :
    Settles defined (readOptional read) := by
  intro v x hread
  obtain ⟨y, hy, -⟩ := Option.map_eq_some_iff.mp hread
  exact h v y hy

theorem settles_word {ofName? : String → Option α}
    (h : ∀ word, (ofName? word).isSome → defined [word] = true) :
    Settles defined (readWord ofName?) := by
  intro v x hread
  rw [readWord.eq_def] at hread
  split at hread
  · exact List.forall_mem_nil _
  · simpa [Value.keyPaths, Toml.keyPaths] using h _ (Option.isSome_of_eq_some hread)
  · simpa [Value.keyPaths, Toml.keyPaths] using h _ (Option.isSome_of_eq_some hread)
  · cases hread

/-- Definitions are strings, so there are no keys in them. -/
theorem settles_defines (h : ∀ key, defined [key] = true) : Settles defined readDefines := by
  intro v x hread
  cases v with
  | table entries =>
    obtain ⟨items, hitems, -⟩ := Option.bind_eq_some_iff.mp hread
    clear hread
    induction entries generalizing items with
    | nil => exact List.forall_mem_nil _
    | cons entry rest ih =>
      obtain ⟨key, v⟩ := entry
      rw [List.mapM_cons] at hitems
      obtain ⟨item, hitem, hrest⟩ := Option.bind_eq_some_iff.mp hitems
      obtain ⟨items', hitems', -⟩ := Option.bind_eq_some_iff.mp hrest
      obtain ⟨text, htext, -⟩ := Option.bind_eq_some_iff.mp hitem
      cases v with
      | text s =>
        have hinner := ih items' hitems'
        simp only [Value.keyPaths, Toml.keyPaths, List.map_nil, List.cons_append,
          List.nil_append, List.forall_mem_cons]
        exact ⟨h key, hinner⟩
      | _ => cases htext
  | dateTime s => simpa [Value.keyPaths] using h dateKey
  | _ => cases hread

theorem Settles.of_fieldOr {read : Value → Option α} {default x : α} (h : Settles defined read)
    (hread : fieldOr field name read default = some x) (hfield : field name = some w) :
    ∀ path ∈ w.keyPaths, defined path = true := by
  rw [fieldOr, hfield] at hread
  exact h w x hread

/-! ### Sections -/

/-- A section is read by its fields alone, and what they hold is defined. -/
structure ReadByFields (sect : String × List String) (read : Value → Option α) : Prop where
  congr : ∀ v v' field field', fields? sect.2 v = some field → fields? sect.2 v' = some field' →
    (∀ name ∈ sect.2, field name = field' name) → read v = read v'
  settled : ∀ v r, read v = some r → ∃ field, fields? sect.2 v = some field ∧
    ∀ name ∈ sect.2, ∀ w, field name = some w →
      ∀ path ∈ w.keyPaths, isDefined (sect.1 :: name :: path) = true

theorem renderer_readByFields : ReadByFields ("renderer", rendererFields) readRenderer := by
  constructor
  · intro v v' field field' hv hv' hsame
    simp only [readRenderer, hv, hv', Option.bind_eq_bind, Option.bind_some, fieldOr,
      hsame "command" (by decide), hsame "info_args" (by decide), hsame "input" (by decide),
      hsame "timeout_ms" (by decide), hsame "grace_ms" (by decide)]
  · intro v r hread
    simp only [readRenderer, Option.bind_eq_bind, Option.bind_eq_some_iff] at hread
    obtain ⟨field, hfield, _, hcommand, _, hinfo, _, hinput, _, htimeout, _, hgrace, -⟩ := hread
    refine ⟨field, hfield, fun name hname w hw => ?_⟩
    simp only [rendererFields, List.mem_cons, List.not_mem_nil, or_false] at hname
    rcases hname with rfl | rfl | rfl | rfl | rfl
    · exact (settles_of_keyless (fun _ => rfl) fun _ => rfl).of_fieldOr hcommand hw
    · exact (settles_of_keyless (fun _ => rfl) fun _ => rfl).of_fieldOr hinfo hw
    · exact (settles_word fun _ h => h).of_fieldOr hinput hw
    · exact (settles_of_keyless (fun _ => rfl) fun _ => rfl).of_fieldOr htimeout hw
    · exact (settles_of_keyless (fun _ => rfl) fun _ => rfl).of_fieldOr hgrace hw

theorem pipeline_readByFields : ReadByFields ("pipeline", pipelineFields) readPipeline := by
  constructor
  · intro v v' field field' hv hv' hsame
    simp only [readPipeline, hv, hv', Option.bind_eq_bind, Option.bind_some, fieldOr,
      hsame "debounce_ms" (by decide)]
  · intro v r hread
    simp only [readPipeline, Option.bind_eq_bind, Option.bind_eq_some_iff] at hread
    obtain ⟨field, hfield, _, hdebounce, -⟩ := hread
    refine ⟨field, hfield, fun name hname w hw => ?_⟩
    obtain rfl := List.mem_singleton.mp hname
    exact (settles_of_keyless (fun _ => rfl) fun _ => rfl).of_fieldOr hdebounce hw

theorem render_readByFields : ReadByFields ("render", renderFields) readSettings := by
  constructor
  · intro v v' field field' hv hv' hsame
    simp only [readSettings, hv, hv', Option.bind_eq_bind, Option.bind_some, fieldOr,
      hsame "paper" (by decide), hsame "transpose" (by decide), hsame "notation" (by decide),
      hsame "diagrams" (by decide), hsame "configs" (by decide), hsame "task" (by decide),
      hsame "defines" (by decide), hsame "extra_args" (by decide)]
  · intro v r hread
    simp only [readSettings, Option.bind_eq_bind, Option.bind_eq_some_iff] at hread
    obtain ⟨field, hfield, _, hpaper, _, htranspose, _, hnames, _, hdiagrams, _, hconfigs, _, htask,
      _, hdefines, _, hextra, -⟩ := hread
    refine ⟨field, hfield, fun name hname w hw => ?_⟩
    simp only [renderFields, List.mem_cons, List.not_mem_nil, or_false] at hname
    rcases hname with rfl | rfl | rfl | rfl | rfl | rfl | rfl | rfl
    · exact (settles_optional
        (settles_of_keyless (fun _ => rfl) fun _ => rfl)).of_fieldOr hpaper hw
    · exact (settles_of_keyless (fun _ => rfl) fun _ => rfl).of_fieldOr htranspose hw
    · exact (settles_optional
        (settles_of_keyless (fun _ => rfl) fun _ => rfl)).of_fieldOr hnames hw
    · exact (settles_of_keyless (fun _ => rfl) fun _ => rfl).of_fieldOr hdiagrams hw
    · exact (settles_of_keyless (fun _ => rfl) fun _ => rfl).of_fieldOr hconfigs hw
    · exact (settles_optional
        (settles_of_keyless (fun _ => rfl) fun _ => rfl)).of_fieldOr htask hw
    · exact (settles_defines fun _ => rfl).of_fieldOr hdefines hw
    · exact (settles_of_keyless (fun _ => rfl) fun _ => rfl).of_fieldOr hextra hw

theorem preview_readByFields : ReadByFields ("preview", previewFields) readPreview := by
  constructor
  · intro v v' field field' hv hv' hsame
    simp only [readPreview, hv, hv', Option.bind_eq_bind, Option.bind_some, fieldOr,
      hsame "pane" (by decide), hsame "output" (by decide), hsame "log" (by decide)]
  · intro v r hread
    simp only [readPreview, Option.bind_eq_bind, Option.bind_eq_some_iff] at hread
    obtain ⟨field, hfield, _, hpane, _, houtput, _, hlog, -⟩ := hread
    refine ⟨field, hfield, fun name hname w hw => ?_⟩
    simp only [previewFields, List.mem_cons, List.not_mem_nil, or_false] at hname
    rcases hname with rfl | rfl | rfl
    · exact (settles_word fun _ h => h).of_fieldOr hpane hw
    · exact (settles_optional
        (settles_of_keyless (fun _ => rfl) fun _ => rfl)).of_fieldOr houtput hw
    · exact (settles_optional
        (settles_of_keyless (fun _ => rfl) fun _ => rfl)).of_fieldOr hlog hw

section

variable {read : Value → Option α} {default r : α} (hsect : sect ∈ sections)
  (hread : ReadByFields sect read)
include hsect hread

/-- A section is read alike without the keys that it does not know. -/
theorem ReadByFields.kept (h : read v = some r) :
    read (v.kept fun path => isDefined (sect.1 :: path)) = some r := by
  obtain ⟨field, hfield, hsettled⟩ := hread.settled v r h
  cases v with
  | table es =>
    obtain rfl : Toml.find? es = field := Option.some.inj hfield
    refine (hread.congr _ _ _ _ rfl hfield fun name hname => ?_).trans h
    have hname' : isDefined [sect.1, name] = true := by
      rw [isDefined_field hsect]
      exact decide_eq_true hname
    rw [Toml.find?_kept hname']
    cases hfind : Toml.find? es name with
    | none => rfl
    | some w => rw [Option.map_some, Toml.Value.kept_eq_self (hsettled name hname w hfind)]
  | dateTime s =>
    rw [Value.kept]
    split
    · exact h
    · exact (hread.congr _ _ _ _ rfl hfield fun _ _ =>
        congrFun (Option.some.inj hfield) _).trans h
  | _ => exact h

theorem ReadByFields.fieldOr_kept
    (h : fieldOr (Toml.find? entries) sect.1 read default = some r) :
    fieldOr (Toml.find? (Toml.kept isDefined entries)) sect.1 read default = some r := by
  rw [fieldOr] at h ⊢
  rw [Toml.find?_kept (isDefined_section hsect)]
  cases hfind : Toml.find? entries sect.1 with
  | none =>
    rw [hfind] at h
    exact h
  | some v =>
    rw [hfind] at h
    exact hread.kept hsect h

end

/-- The configuration is the same without the keys that nothing knows. -/
theorem ofEntries?_kept (h : ofEntries? entries = some c) :
    ofEntries? (Toml.kept isDefined entries) = some c := by
  simp only [ofEntries?, Option.bind_eq_bind, Option.bind_eq_some_iff] at h ⊢
  obtain ⟨r, hrenderer, p, hpipeline, s, hrender, v, hpreview, hc⟩ := h
  exact ⟨r, renderer_readByFields.fieldOr_kept (by decide) hrenderer,
    p, pipeline_readByFields.fieldOr_kept (by decide) hpipeline,
    s, render_readByFields.fieldOr_kept (by decide) hrender,
    v, preview_readByFields.fieldOr_kept (by decide) hpreview, hc⟩

/-- What the fields of a section hold is defined, where the document can be read. -/
theorem settled_of_ofEntries? (h : ofEntries? entries = some c) (hsect : sect ∈ sections)
    (hv : Toml.find? entries sect.1 = some v) : ∃ field, fields? sect.2 v = some field ∧
      ∀ name ∈ sect.2, ∀ w, field name = some w →
        ∀ path ∈ w.keyPaths, isDefined (sect.1 :: name :: path) = true := by
  simp only [ofEntries?, Option.bind_eq_bind, Option.bind_eq_some_iff] at h
  obtain ⟨r, hrenderer, p, hpipeline, s, hrender, v, hpreview, -⟩ := h
  simp only [sections, List.mem_cons, List.not_mem_nil, or_false] at hsect
  rcases hsect with rfl | rfl | rfl | rfl
  · rw [fieldOr, hv] at hrenderer
    exact renderer_readByFields.settled _ _ hrenderer
  · rw [fieldOr, hv] at hpipeline
    exact pipeline_readByFields.settled _ _ hpipeline
  · rw [fieldOr, hv] at hrender
    exact render_readByFields.settled _ _ hrender
  · rw [fieldOr, hv] at hpreview
    exact preview_readByFields.settled _ _ hpreview

/-! ### What is named -/

/-- The dotted name of a key. -/
def dotted (path : List String) : String :=
  ".".intercalate path

/-- In a section that can be read, the outermost undefined keys are the fields that it does not
know. -/
theorem unknownFields_eq (hkeyed : v.Keyed) (hsect : sect ∈ sections)
    (hfield : fields? sect.2 v = some field)
    (hsettled : ∀ name ∈ sect.2, ∀ w, field name = some w →
      ∀ path ∈ w.keyPaths, isDefined (sect.1 :: name :: path) = true) :
    v.undefinedKeys (fun path => isDefined (sect.1 :: path)) =
      (unknownFields sect.2 v).map fun name => [name] := by
  cases v with
  | table es =>
    obtain rfl : Toml.find? es = field := Option.some.inj hfield
    have hinner : ∀ entry ∈ es, entry.1 ∈ sect.2 →
        entry.2.undefinedKeys (fun path => isDefined (sect.1 :: entry.1 :: path)) = [] :=
      fun entry hentry hname => Toml.undefinedKeys_eq_nil
        (hsettled entry.1 hname entry.2 (Toml.find?_of_mem hkeyed.once hentry))
    clear hsettled hkeyed hfield
    induction es with
    | nil => rfl
    | cons entry rest ih =>
      obtain ⟨name, w⟩ := entry
      rw [List.forall_mem_cons] at hinner
      rw [Toml.undefinedKeys_cons, ih hinner.2, isDefined_field hsect]
      by_cases hname : name ∈ sect.2
      · simp [hname, hinner.1 hname, unknownFields]
      · simp [hname, unknownFields]
  | array items => rfl
  | dateTime s =>
    have hdate : isDefined [sect.1, dateKey] = false := by
      rw [isDefined_field hsect]
      simp only [sections, List.mem_cons, List.not_mem_nil, or_false] at hsect
      rcases hsect with rfl | rfl | rfl | rfl <;> decide
    simp [Value.undefinedKeys, Value.keyPaths, Toml.outermost_singleton, hdate, unknownFields]
  | _ => cases hfield

/-- The keys that are named as unknown are the outermost undefined ones. -/
theorem unknownKeys_eq (hkeyed : (Value.table entries).Keyed) (h : ofEntries? entries = some c) :
    unknownKeys entries = ((Value.table entries).undefinedKeys isDefined).map dotted := by
  have hfind : ∀ entry ∈ entries, Toml.find? entries entry.1 = some entry.2 :=
    fun entry hentry => Toml.find?_of_mem hkeyed.once hentry
  have hinner : ∀ entry ∈ entries, entry.2.Keyed := fun entry => hkeyed.of_mem
  suffices hall : ∀ rest, (∀ entry ∈ rest, entry ∈ entries) →
      unknownKeys rest = ((Value.table rest).undefinedKeys isDefined).map dotted from
    hall entries fun _ => id
  intro rest hrest
  induction rest with
  | nil => rfl
  | cons entry rest ih =>
    obtain ⟨key, v⟩ := entry
    rw [List.forall_mem_cons] at hrest
    rw [Toml.undefinedKeys_cons, List.map_append, ← ih hrest.2, unknownKeys, List.flatMap_cons]
    refine congrArg (· ++ _) ?_
    dsimp only
    split
    · next hnone =>
      have hnot : isDefined [key] = false := by
        rw [isDefined, List.any_eq_false]
        simpa using List.find?_eq_none.mp hnone
      simp [hnot, dotted]
    · next found names hsome =>
      obtain rfl : found = key := by simpa using List.find?_some hsome
      have hsect := List.mem_of_find?_eq_some hsome
      obtain ⟨field, hfield, hsettled⟩ :=
        settled_of_ofEntries? h hsect (hfind _ hrest.1)
      have hfields := unknownFields_eq (hinner _ hrest.1) hsect hfield hsettled
      simp only [isDefined_section hsect, if_true, hfields, List.map_map]
      simp [dotted, Function.comp_def]

/-! ### Fields -/

/-- A field of the configuration, under its name in a section. -/
structure Field where
  sect : String
  name : String
  {α : Type}
  get : Config → α

/-- The fields of the configuration, by section. -/
def Field.all : List Field := [
  ⟨"renderer", "command", fun c => c.renderer.command⟩,
  ⟨"renderer", "info_args", fun c => c.renderer.infoArguments⟩,
  ⟨"renderer", "input", fun c => c.renderer.input⟩,
  ⟨"renderer", "timeout_ms", fun c => c.renderer.timeout⟩,
  ⟨"renderer", "grace_ms", fun c => c.renderer.grace⟩,
  ⟨"pipeline", "debounce_ms", fun c => c.pipeline.debounce⟩,
  ⟨"render", "paper", fun c => c.render.paper⟩,
  ⟨"render", "transpose", fun c => c.render.transpose⟩,
  ⟨"render", "notation", fun c => c.render.noteNames⟩,
  ⟨"render", "diagrams", fun c => c.render.diagrams⟩,
  ⟨"render", "configs", fun c => c.render.configs⟩,
  ⟨"render", "task", fun c => c.render.task⟩,
  ⟨"render", "defines", fun c => c.render.defines⟩,
  ⟨"render", "extra_args", fun c => c.render.extraArguments⟩,
  ⟨"preview", "pane", fun c => c.preview.pane⟩,
  ⟨"preview", "output", fun c => c.preview.output⟩,
  ⟨"preview", "log", fun c => c.preview.log⟩]

-- Each key of each section has its field, in order.
example : Field.all.map (fun f => (f.sect, f.name)) =
    sections.flatMap fun sect => sect.2.map fun name => (sect.1, name) :=
  rfl

/-- A document gives a value for a field: under its key in the table of its section, or in its
place in an array. -/
inductive Given (entries : List (String × Value)) : (sect name : String) → Prop
  | key {sect name : String} {es : List (String × Value)} {v : Value}
      (hsect : (sect, .table es) ∈ entries) (hname : (name, v) ∈ es) : Given entries sect name
  | place {sect name : String} {items : List Value} {names : List String} {i : Nat}
      (hsect : (sect, .array items) ∈ entries) (hnames : (sect, names) ∈ sections)
      (hname : names[i]? = some name) (hplace : i < items.length) : Given entries sect name

/-- Nothing is told of a field that is not given. -/
theorem told?_of_not_given (hsect : sect ∈ sections) (h : ¬Given entries sect.1 name)
    (read : Value → Option α) : told? entries sect name read = none := by
  rw [Option.eq_none_iff_forall_ne_some]
  intro x hx
  simp only [told?, Option.bind_eq_bind, Option.bind_eq_some_iff] at hx
  obtain ⟨v, hv, field, hfield, w, hw, -⟩ := hx
  have hmem := Toml.mem_of_find? hv
  cases v with
  | table es =>
    obtain rfl : Toml.find? es = field := Option.some.inj hfield
    exact h (.key hmem (Toml.mem_of_find? hw))
  | array items =>
    obtain rfl := Option.some.inj hfield
    obtain ⟨i, hi, hitem⟩ := Option.bind_eq_some_iff.mp hw
    obtain ⟨hlt, hname, -⟩ := List.idxOf?_eq_some_iff.mp hi
    obtain ⟨hplace, -⟩ := List.getElem?_eq_some_iff.mp hitem
    exact h (.place hmem hsect (List.getElem?_eq_some_iff.mpr ⟨hlt, hname⟩) hplace)
  | dateTime s =>
    obtain rfl := Option.some.inj hfield
    cases hw
  | _ => cases hfield

/-- A field that is not given has its default. -/
theorem get_of_not_given (h : ofEntries? entries = some c) {f : Field} (hf : f ∈ Field.all)
    (hnot : ¬Given entries f.sect f.name) : f.get c = f.get {} := by
  simp only [ofEntries?, Option.bind_eq_bind, Option.bind_eq_some_iff, Option.pure_def,
    Option.some.injEq] at h
  obtain ⟨r, hrenderer, p, hpipeline, s, hrender, v, hpreview, rfl⟩ := h
  have hsect : ("renderer", rendererFields) ∈ sections ∧ ("pipeline", pipelineFields) ∈ sections ∧
      ("render", renderFields) ∈ sections ∧ ("preview", previewFields) ∈ sections := by
    decide
  rw [renderer_told hrenderer, pipeline_told hpipeline, render_told hrender,
    preview_told hpreview]
  simp only [Field.all, List.mem_cons, List.not_mem_nil, or_false] at hf
  rcases hf with rfl | rfl | rfl | rfl | rfl | rfl | rfl | rfl | rfl | rfl | rfl | rfl | rfl |
    rfl | rfl | rfl | rfl
  iterate 5 simp only [told?_of_not_given hsect.1 hnot, Option.getD_none]
  · simp only [told?_of_not_given hsect.2.1 hnot, Option.getD_none]
  iterate 8 simp only [told?_of_not_given hsect.2.2.1 hnot, Option.getD_none]
  iterate 3 simp only [told?_of_not_given hsect.2.2.2 hnot, Option.getD_none]

/-! ### Documents -/

/-- **Unknown keys are named and have no effect.** Of every document that can be read as a
configuration, exactly the outermost keys that no section defines are named, by their dotted names
and in the order of the document. Without them it is the tree of a document that is read as the
same configuration, and nothing is named. Every field that is not given, by its key or by its place
in an array, has its default, whatever else is given. -/
theorem unknown_keys_without_effect {document : String} {unknown : List String}
    (h : parse? document = some (c, unknown)) :
    ∃ entries, Toml.read? document = some entries ∧
      unknown = ((Toml.keyPaths entries).filter (Toml.Outermost isDefined)).map dotted ∧
      ofEntries? (Toml.kept isDefined entries) = some c ∧
      unknownKeys (Toml.kept isDefined entries) = [] ∧
      (∀ cleaned, Toml.read? cleaned = some (Toml.kept isDefined entries) →
        parse? cleaned = some (c, [])) ∧
      ∀ f ∈ Field.all, ¬Given entries f.sect f.name → f.get c = f.get {} := by
  simp only [parse?, Option.bind_eq_bind, Option.bind_eq_some_iff, Option.pure_def,
    Option.some.injEq, Prod.mk.injEq] at h
  obtain ⟨entries, hentries, c', hc, rfl, rfl⟩ := h
  have hkeyed := Toml.read?_keyed hentries
  have hkept := ofEntries?_kept hc
  have hnone : unknownKeys (Toml.kept isDefined entries) = [] := by
    have hdefined := Value.defined_of_mem_kept isDefined (.table entries)
    rw [unknownKeys_eq (hkeyed.kept isDefined) hkept,
      Toml.undefinedKeys_eq_nil (v := .table (Toml.kept isDefined entries)) hdefined, List.map_nil]
  refine ⟨entries, hentries, unknownKeys_eq hkeyed hc, hkept, hnone, fun cleaned hcleaned => ?_,
    fun f hf => get_of_not_given hc hf⟩
  simp [parse?, hcleaned, hkept, hnone]

/-- Typing errors at three depths, beside fields, definitions and a word as a table. -/
private def mistyped : String :=
  "[colour]\nred = 1\n[renderer]\ncomand = [\"x\"]\ninput = \x7b stdin = [] \x7d\n" ++
  "[renderer.limits]\ntime = 1\n[render.defines]\npaper = \"a5\"\n"

/-- The same without them. -/
private def corrected : String :=
  "[renderer]\ninput = \x7b stdin = [] \x7d\n[render.defines]\npaper = \"a5\"\n"

/-- What both say. -/
private def overStdin : Config where
  renderer := { input := .stdin }
  render := { defines := .ofList [("paper", "a5")] }

/-- Every error is named once, and the definition stays a definition. -/
theorem mistyped_keys_named : ∃ entries,
    parse? mistyped = some (overStdin, ["colour", "renderer.comand", "renderer.limits"]) ∧
    Toml.read? mistyped = some entries ∧
    ((Toml.keyPaths entries).filter (Toml.Outermost isDefined)).map dotted =
      ["colour", "renderer.comand", "renderer.limits"] ∧
    ofEntries? (Toml.kept isDefined entries) = some overStdin ∧
    parse? corrected = some (overStdin, []) ∧ overStdin.renderer.command = ["chordpro"] := by
  have hparse : parse? mistyped =
      some (overStdin, ["colour", "renderer.comand", "renderer.limits"]) := by
    decide +kernel
  obtain ⟨entries, hentries, hnamed, hkept, -⟩ := unknown_keys_without_effect hparse
  exact ⟨entries, hparse, hentries, hnamed.symm, hkept, by decide +kernel, rfl⟩

/-- A field may be given without its key. -/
theorem array_gives_fields : ¬∀ document c unknown, parse? document = some (c, unknown) →
    ∃ entries, Toml.read? document = some entries ∧
      ∀ f ∈ Field.all, [f.sect, f.name] ∉ Toml.keyPaths entries → f.get c = f.get {} := by
  intro hall
  have hparse : parse? "preview = [\"editor-only\"]" =
      some ({ preview := { pane := .editorOnly } }, []) := by
    decide +kernel
  have hkeys : (Toml.read? "preview = [\"editor-only\"]").map Toml.keyPaths =
      some [["preview"]] := by
    decide +kernel
  obtain ⟨entries, hentries, hdefault⟩ := hall _ _ _ hparse
  rw [hentries, Option.map_some, Option.some.injEq] at hkeys
  have hpane := hdefault ⟨"preview", "pane", fun c => c.preview.pane⟩ (by simp [Field.all])
    (by rw [hkeys]; decide)
  cases hpane

end Config

end SongPreview
