import SongPreview.Proofs.Machine.Spelling

/-!
# Spellings that lead to one place

Two spellings of the same components lead to one place, however many dots and slashes they have
besides. The path of a place spells it out, with something there or not. So a path that is only
compared by its components is never taken for a path to another place.
-/

namespace SongPreview

namespace Tree

/-- What a step says in a path. A step that stays says nothing. -/
def Step.component? : Step → Option Path.Component
  | .stay => none
  | .up => some .up
  | .name down => some (.name down)

theorem Step.component?_inj {a b : Step} {c : Path.Component} (ha : a.component? = some c)
    (hb : b.component? = some c) : a = b := by
  cases a <;> cases ha <;> cases b <;> cases hb <;> rfl

/-- The way down some names says these names. -/
theorem filterMap_component?_names (names : List String) :
    (names.map Step.name).filterMap Step.component? = names.map .name := by
  rw [List.filterMap_map, ← List.filterMap_eq_map]
  rfl

theorem Step.component?_ofPiece (piece : List Char) :
    (Step.ofPiece piece).component? = Path.Component.ofPiece? piece := by
  unfold Step.ofPiece Path.Component.ofPiece?
  split_ifs <;> rfl

end Tree

namespace Path

variable {base p q : Path}

/-- The steps of a path that lead anywhere. -/
def moves (p : Path) : List Component :=
  (Tree.Step.ofPath p).filterMap Tree.Step.component?

theorem moves_eq (p : Path) :
    p.moves = (splitSlash p.text.toList).filterMap Component.ofPiece? := by
  rw [moves, Tree.Step.ofPath, List.filterMap_map]
  exact List.filterMap_congr fun piece _ => Tree.Step.component?_ofPiece piece

/-- A path in a directory goes to the directory first. -/
theorem moves_join (h : p.isAbsolute = false) : (base.join p).moves = base.moves ++ p.moves := by
  have hpiece : Component.ofPiece? [] = none := rfl
  rw [join, if_neg (by simp [h])]
  split
  · next hend =>
    simp only [moves_eq, String.toList_append]
    rcases hend with hempty | hslash
    · simp [hempty, splitSlash, hpiece]
    · obtain ⟨front, hfront⟩ := List.getLast?_eq_some_iff.mp hslash
      rw [hfront, List.append_assoc, List.singleton_append, splitSlash_append_slash,
        splitSlash_append_slash]
      simp [splitSlash, hpiece]
  · have hslash : ("/" : String).toList = ['/'] := rfl
    simp only [moves_eq, String.toList_append, hslash, List.append_assoc, List.singleton_append,
      splitSlash_append_slash, List.filterMap_append]

theorem map_fst_withEnds (start : Nat) (pieces : List (List Char)) :
    ((withEnds start pieces).filterMap fun (piece, stop) =>
      (Component.ofPiece? piece).map fun c => (c, stop)).map Prod.fst =
      pieces.filterMap Component.ofPiece? := by
  induction pieces generalizing start with
  | nil => rfl
  | cons piece pieces ih =>
    rw [withEnds]
    cases hpiece : Component.ofPiece? piece with
    | none => simpa [hpiece] using ih _
    | some c => simpa [hpiece] using ih _

/-- An absolute path goes its way from the root. -/
theorem components_of_isAbsolute (h : p.isAbsolute = true) : p.components = .root :: p.moves := by
  obtain ⟨text, htext⟩ := exists_of_isAbsolute h
  have hsplit : splitSlash ('/' :: text) = [] :: splitSlash text := by simp [splitSlash]
  rw [components, spans_of_text htext, List.map_cons, map_fst_withEnds, moves_eq, htext, hsplit]
  rfl

theorem same_iff_moves (hp : p.isAbsolute = true) (hq : q.isAbsolute = true) :
    p.same q = true ↔ p.moves = q.moves := by
  simp [same, components_of_isAbsolute hp, components_of_isAbsolute hq]

end Path

namespace Tree

variable {t : Tree} {links links' : Nat} {here place place' out out' dir : Location} {p : Path}
  {name : String} {steps steps' : List Step}

theorem not_mem_of_mem_splitSlash {text piece : List Char} (h : piece ∈ Path.splitSlash text) :
    '/' ∉ piece := by
  induction text generalizing piece with
  | nil => simp_all [Path.splitSlash]
  | cons c text ih =>
    rw [Path.splitSlash] at h
    split at h
    · rcases List.mem_cons.mp h with rfl | hmem
      · simp
      · exact ih hmem
    · next hc =>
      obtain ⟨first, rest, hsplit⟩ := List.exists_cons_of_ne_nil (Path.splitSlash_ne_nil text)
      simp only [hsplit, List.mem_cons] at h ih
      rcases h with rfl | hmem
      · simpa [Ne.symm hc] using ih (.inl rfl)
      · exact ih (.inr hmem)

/-- Every step down that a path describes can be spelled. -/
theorem spelled_of_mem_ofPath (h : .name name ∈ Step.ofPath p) : Spelled name := by
  obtain ⟨piece, hmem, hpiece⟩ := List.mem_map.mp h
  unfold Step.ofPiece at hpiece
  split_ifs at hpiece with hstay hup
  obtain rfl := Step.name.inj hpiece
  rw [not_or] at hstay
  refine ⟨?_, ?_, ?_, ?_⟩
  · exact fun heq => hstay.1 (by simpa using congrArg String.toList heq)
  · exact fun heq => hstay.2 (by simpa using congrArg String.toList heq)
  · exact fun heq => hup (by simpa using congrArg String.toList heq)
  · simpa using not_mem_of_mem_splitSlash hmem

/-- The path of a place goes down to it, name by name. -/
theorem moves_path (h : ∀ name ∈ place, Spelled name) :
    place.path.moves = place.reverse.map .name := by
  by_cases hplace : place = []
  · subst hplace
    rfl
  · rw [Path.moves, ofPath_path h hplace, ← filterMap_component?_names]
    rfl

/-- Places have different spellings. -/
theorem path_same_path_iff (h : ∀ name ∈ place, Spelled name)
    (h' : ∀ name ∈ place', Spelled name) :
    place.path.same place'.path = true ↔ place = place' := by
  have hinj : Function.Injective (Path.Component.name : String → Path.Component) :=
    fun _ _ => Path.Component.name.inj
  rw [Path.same_iff_moves isAbsolute_path isAbsolute_path, moves_path h, moves_path h',
    (List.map_injective_iff.mpr hinj).eq_iff, List.reverse_inj]

/-! ### Ways with the same steps -/

/-- Steps that stay lead nowhere. -/
theorem Leads.of_no_moves (h : Leads t true out links here steps)
    (hsteps : steps.filterMap Step.component? = []) : out = here := by
  induction steps with
  | nil =>
    cases h
    rfl
  | cons step rest ih =>
    cases h with
    | stay _ onward => exact ih onward hsteps
    | up | link | name => simp [Step.component?] at hsteps

/-- The first step that leads anywhere is taken from the same place. -/
theorem Leads.skip (h : Leads t true out links here steps) {step : Step} {c : Path.Component}
    (hstep : step.component? = some c) {cs : List Path.Component}
    (hsteps : steps.filterMap Step.component? = c :: cs) :
    ∃ rest, rest.filterMap Step.component? = cs ∧ Leads t true out links here (step :: rest) := by
  induction steps with
  | nil => cases hsteps
  | cons first rest ih =>
    cases hfirst : first.component? with
    | none =>
      cases h with
      | stay _ onward => exact ih onward hsteps
      | up | link | name => cases hfirst
    | some c' =>
      obtain ⟨rfl, rfl⟩ : c' = c ∧ rest.filterMap Step.component? = cs := by
        simpa [hfirst] using hsteps
      obtain rfl := Step.component?_inj hfirst hstep
      exact ⟨rest, rfl, h⟩

/-- Where a way leads depends on the steps that lead anywhere alone. -/
theorem Leads.unique (h : Leads t true out links here steps)
    (h' : Leads t true out' links' here steps')
    (hsteps : steps'.filterMap Step.component? = steps.filterMap Step.component?) : out' = out := by
  -- the second way takes each step of the first that leads anywhere, once the others are skipped
  induction h generalizing links' steps' with
  | stop => exact h'.of_no_moves hsteps
  | stay _ _ ih => exact ih h' hsteps
  | up _ _ ih =>
    obtain ⟨rest', hrest, hway⟩ := h'.skip (rfl : Step.up.component? = some .up) hsteps
    cases hway with
    | up _ onward => exact ih onward hrest
  | @link links here name rest target _ _ there _ _ ih =>
    obtain ⟨rest', hrest, hway⟩ := h'.skip (rfl : (Step.name name).component? = _) hsteps
    cases hway with
    | link _ _ there' _ onward =>
      obtain rfl := Entry.link.inj (Option.some.inj (there'.symm.trans there))
      exact ih onward (by rw [List.filterMap_append, List.filterMap_append, hrest])
    | name _ _ noLink => simpa using noLink target there
  | @name links here name rest _ _ noLink _ _ ih =>
    obtain ⟨rest', hrest, hway⟩ := h'.skip (rfl : (Step.name name).component? = _) hsteps
    cases hway with
    | link _ _ there' => simpa using noLink _ there'
    | name _ _ _ _ onward => exact ih onward hrest

/-- From the root a way can go through any directory, down its names. -/
theorem Regular.leads_through (ht : t.Regular) {names : List String}
    (hdir : t.get? (names.reverse ++ here) = some .directory)
    (h : Leads t true out links (names.reverse ++ here) steps) :
    Leads t true out links here (names.map .name ++ steps) := by
  induction names generalizing here with
  | nil => exact h
  | cons name names ih =>
    rw [List.reverse_cons, List.append_assoc] at hdir h
    have hlegal : LegalName name := ht.legal hdir name (by simp)
    have hfrom : t.get? here = some .directory :=
      ht.above ((List.append_assoc ..).symm ▸ hdir) (by simp)
    have hthere : t.get? (name :: here) = some .directory := by
      by_cases hnames : names = []
      · simpa [hnames] using hdir
      · exact ht.above hdir (by simpa using hnames)
    refine .name hfrom hlegal.2.2.2.2.2 (fun target htarget => ?_) (by simp [hthere]) (ih hdir h)
    simp [hthere] at htarget

/-- Where a way can end: at the root, or under a name in a directory. -/
def Ending (t : Tree) : Location → Prop
  | [] => True
  | name :: dir => t.get? dir = some .directory ∧ Spelled name ∧ name.utf8ByteSize ≤ nameLimit ∧
      ∀ target, t.get? (name :: dir) ≠ some (.link target)

theorem Regular.ending_of_directory (ht : t.Regular) (h : t.get? place = some .directory) :
    t.Ending place := by
  cases place with
  | nil => trivial
  | cons name dir =>
    have hlegal := ht.legal h name List.mem_cons_self
    exact ⟨ht.tail h, hlegal.spelled, hlegal.2.2.2.2.2, by simp [h]⟩

/-- Every way that a path describes ends so. -/
theorem Regular.ending (ht : t.Regular) (h : Leads t true out links here steps)
    (hsteps : ∀ name, .name name ∈ steps → Spelled name) (hhere : t.Ending here) :
    t.Ending out := by
  induction h with
  | stop => exact hhere
  | stay _ _ ih => exact ih (fun name hname => hsteps name (List.mem_cons_of_mem _ hname)) hhere
  | up from_ _ ih =>
    exact ih (fun name hname => hsteps name (List.mem_cons_of_mem _ hname))
      (ht.ending_of_directory (ht.tail from_))
  | @link links here name rest target from_ _ _ _ _ ih =>
    refine ih (fun name' hname => ?_) ?_
    · rcases List.mem_append.mp hname with htarget | hrest
      · exact spelled_of_mem_ofPath htarget
      · exact hsteps name' (List.mem_cons_of_mem _ hrest)
    · split
      · trivial
      · exact hhere
  | @name links here name rest from_ short noLink _ _ ih =>
    refine ih (fun name' hname => hsteps name' (List.mem_cons_of_mem _ hname)) ?_
    exact ⟨from_, hsteps name List.mem_cons_self, short, fun target htarget => by
      simpa using noLink target htarget⟩

theorem Regular.spelled_of_ending (ht : t.Regular) (h : t.Ending place) :
    ∀ name ∈ place, Spelled name := by
  cases place with
  | nil => simp
  | cons name dir =>
    exact List.forall_mem_cons.mpr ⟨h.2.1, fun name' hname => (ht.legal h.1 name' hname).spelled⟩

/-- A place where a way can end is reached down its names. -/
theorem Regular.leads_of_ending (ht : t.Regular) (h : t.Ending place) :
    Leads t true place links [] (place.reverse.map .name) := by
  cases place with
  | nil => exact .stop
  | cons name dir =>
    obtain ⟨hdir, -, hshort, hlink⟩ := h
    rw [List.reverse_cons, List.map_append]
    refine ht.leads_through (by simpa using hdir) ?_
    rw [List.reverse_reverse, List.append_nil]
    exact .name hdir hshort (fun target htarget => absurd htarget (hlink target))
      (fun hrest => absurd rfl hrest) .stop

end Tree

namespace Machine

variable {m : Machine} {p q : Path} {place there : Location} {entry : Entry}

/-- The path in its absolute spelling. -/
def spelling (m : Machine) (p : Path) : Path :=
  m.workPath.join p

theorem isAbsolute_spelling (m : Machine) (p : Path) : (m.spelling p).isAbsolute = true :=
  Path.isAbsolute_join Tree.isAbsolute_path

/-- A path to nothing stays as it is spelled. -/
theorem normalize_of_not_exists (hm : m.Regular) (h : m.exists? p = false) :
    m.normalize p = m.spelling p := by
  cases hfind : m.find p with
  | ok found => simp [exists?, hfind, Except.isOk, Except.toBool] at h
  | error fault =>
    simp [normalize, canonical, hfind, hm.hasWorkDir, spelling, bind, Except.bind]

/-- A path leads where its spelling leads from the root. -/
theorem Regular.leads_of_locate (hm : m.Regular) (h : m.tree.locate m.workDir p = .ok place) :
    ∃ steps, steps.filterMap Tree.Step.component? = (m.spelling p).moves ∧
      Tree.Leads m.tree true place Tree.linkLimit [] steps := by
  have hway := (Tree.locate_ok_iff.mp h).2
  cases habsolute : p.isAbsolute with
  | true =>
    rw [Tree.start, if_pos habsolute] at hway
    refine ⟨Tree.Step.ofPath p, ?_, hway⟩
    rw [spelling, Path.join_of_isAbsolute habsolute, Path.moves]
  | false =>
    rw [Tree.start, if_neg (by simp [habsolute])] at hway
    have hspelled := hm.tree.spelled_of_ending (hm.tree.ending_of_directory hm.workDir)
    refine ⟨m.workDir.reverse.map .name ++ Tree.Step.ofPath p, ?_,
      hm.tree.leads_through (by simpa using hm.workDir) (by simpa using hway)⟩
    rw [spelling, Path.moves_join habsolute, workPath, Tree.moves_path hspelled,
      List.filterMap_append, Tree.filterMap_component?_names, Path.moves]

theorem Regular.ending_of_locate (hm : m.Regular) (h : m.tree.locate m.workDir p = .ok place) :
    m.tree.Ending place := by
  refine hm.tree.ending (Tree.locate_ok_iff.mp h).2 (fun _ => Tree.spelled_of_mem_ofPath) ?_
  rw [Tree.start]
  split
  · trivial
  · exact hm.tree.ending_of_directory hm.workDir

/-- Paths of one spelling lead to one place. -/
theorem Regular.eq_of_same (hm : m.Regular) (hp : m.tree.locate m.workDir p = .ok place)
    (hq : m.tree.locate m.workDir q = .ok there)
    (h : (m.spelling p).same (m.spelling q) = true) : there = place := by
  obtain ⟨steps, hsteps, hway⟩ := hm.leads_of_locate hp
  obtain ⟨steps', hsteps', hway'⟩ := hm.leads_of_locate hq
  have hmoves := (Path.same_iff_moves (m.isAbsolute_spelling p) (m.isAbsolute_spelling q)).mp h
  exact hway.unique hway' (by rw [hsteps, hsteps', hmoves])

/-- A path that spells a place out leads there, if another way ends at the place. -/
theorem Regular.eq_of_same_path (hm : m.Regular) (hp : m.tree.locate m.workDir p = .ok place)
    (hthere : m.tree.Ending there) (h : (m.spelling p).same there.path = true) :
    place = there := by
  obtain ⟨steps, hsteps, hway⟩ := hm.leads_of_locate hp
  have hmoves := (Path.same_iff_moves (m.isAbsolute_spelling p) Tree.isAbsolute_path).mp h
  have hdown : Tree.Leads m.tree true there 0 [] (there.reverse.map .name) :=
    hm.tree.leads_of_ending hthere
  refine hdown.unique hway ?_
  rw [hsteps, hmoves, Tree.moves_path (hm.tree.spelled_of_ending hthere),
    Tree.filterMap_component?_names]

end Machine

end SongPreview
