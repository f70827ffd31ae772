import SongPreview.Machine
import SongPreview.Proofs.Machine.Walking

/-!
# Places and their paths

In a regular tree everything stands in a directory, under a name that a path can spell.
There the path of a place leads back to it, so that a file is read under its canonical
path as it is under every other path that leads to it.
-/

namespace SongPreview

/-- Two steps that may fail succeed together if each does. -/
theorem bind_eq_ok {ε α β : Type} {x : Except ε α} {f : α → Except ε β} {b : β} :
    (x >>= f) = .ok b ↔ ∃ a, x = .ok a ∧ f a = .ok b := by
  cases x with
  | error fault => simp [bind, Except.bind]
  | ok a => simp [bind, Except.bind]

theorem isOk_iff {ε α : Type} {x : Except ε α} : x.isOk = true ↔ ∃ a, x = .ok a := by
  cases x with
  | error fault => simp [Except.isOk, Except.toBool]
  | ok a => simp [Except.isOk, Except.toBool]

theorem throw_ne_ok {ε α : Type} {fault : ε} {a : α} : (throw fault : Except ε α) ≠ .ok a :=
  nofun

namespace Path

/-- A text without slashes goes in front of the first piece. -/
theorem splitSlash_append {piece text first : List Char} {rest : List (List Char)}
    (hpiece : '/' ∉ piece) (h : splitSlash text = first :: rest) :
    splitSlash (piece ++ text) = (piece ++ first) :: rest := by
  induction piece with
  | nil => exact h
  | cons c piece ih =>
    obtain ⟨hc, hpiece⟩ : '/' ≠ c ∧ '/' ∉ piece := by simpa using hpiece
    simp [splitSlash, hc.symm, ih hpiece]

/-- Names behind slashes are the pieces of the text, after an empty one. -/
theorem splitSlash_flatMap {names : List String} (h : ∀ name ∈ names, '/' ∉ name.toList) :
    splitSlash (names.flatMap fun name => '/' :: name.toList) =
      [] :: names.map String.toList := by
  induction names with
  | nil => rfl
  | cons name names ih =>
    obtain ⟨hname, hnames⟩ := List.forall_mem_cons.mp h
    simp [splitSlash, splitSlash_append hname (ih hnames)]

end Path

namespace Tree

variable {t : Tree} {links : Nat} {here place out workDir : Location} {entry : Entry}
  {steps : List Step}

/-- A name that something in a directory can have. -/
def LegalName (name : String) : Prop :=
  name ≠ "" ∧ name ≠ "." ∧ name ≠ ".." ∧ '/' ∉ name.toList ∧ '\x00' ∉ name.toList ∧
    name.utf8ByteSize ≤ nameLimit

instance (name : String) : Decidable (LegalName name) :=
  inferInstanceAs (Decidable (_ ∧ _))

/-- A tree as a system keeps it. -/
structure Regular (t : Tree) : Prop where
  /-- Everything stands in a directory. -/
  nested : ∀ e ∈ t.entries, t.get? e.1.tail = some .directory
  named : ∀ e ∈ t.entries, ∀ name ∈ e.1, LegalName name
  /-- Every place can be named by a path. -/
  reachable : ∀ e ∈ t.entries, e.1.path.text.utf8ByteSize ≤ pathLimit

instance (t : Tree) : Decidable t.Regular :=
  decidable_of_iff
    ((∀ e ∈ t.entries, t.get? e.1.tail = some .directory) ∧
      (∀ e ∈ t.entries, ∀ name ∈ e.1, LegalName name) ∧
      ∀ e ∈ t.entries, e.1.path.text.utf8ByteSize ≤ pathLimit)
    ⟨fun ⟨hnested, hnamed, hreachable⟩ => ⟨hnested, hnamed, hreachable⟩,
      fun h => ⟨h.nested, h.named, h.reachable⟩⟩

theorem mem_entries_of_get? (h : t.get? place = some entry) (hplace : place ≠ []) :
    (place, entry) ∈ t.entries := by
  rw [get?, if_neg hplace, List.lookup_eq_some_iff] at h
  obtain ⟨before, after, hentries, -⟩ := h
  simp [hentries]

theorem Regular.tail (ht : t.Regular) (h : t.get? place = some entry) :
    t.get? place.tail = some .directory := by
  by_cases hplace : place = []
  · simp [hplace]
  · exact ht.nested _ (mem_entries_of_get? h hplace)

theorem Regular.legal (ht : t.Regular) (h : t.get? place = some entry) :
    ∀ name ∈ place, LegalName name := by
  by_cases hplace : place = []
  · simp [hplace]
  · exact ht.named _ (mem_entries_of_get? h hplace)

theorem Regular.short (ht : t.Regular) (h : t.get? place = some entry) :
    place.path.text.utf8ByteSize ≤ pathLimit := by
  by_cases hplace : place = []
  · subst hplace
    decide
  · exact ht.reachable _ (mem_entries_of_get? h hplace)

/-- A way on which every link is followed ends at no link. -/
theorem Regular.not_link (ht : t.Regular) (h : Leads t true out links here steps)
    (hhere : ∀ target, t.get? here ≠ some (.link target)) :
    ∀ target, t.get? out ≠ some (.link target) := by
  induction h with
  | stop => exact hhere
  | stay _ _ ih => exact ih hhere
  | up from_ _ ih => exact ih fun target => by simp [ht.tail from_]
  | @link links here name rest target from_ _ _ _ _ ih =>
    apply ih
    intro target'
    split <;> simp [from_]
  | name _ _ noLink _ _ ih => exact ih fun target hentry => by simpa using noLink target hentry

/-- A name that stands between two slashes and is a step down. -/
def Spelled (name : String) : Prop :=
  name ≠ "" ∧ name ≠ "." ∧ name ≠ ".." ∧ '/' ∉ name.toList

theorem LegalName.spelled {name : String} (h : LegalName name) : Spelled name :=
  ⟨h.1, h.2.1, h.2.2.1, h.2.2.2.1⟩

theorem Step.ofPiece_of_spelled {name : String} (h : Spelled name) :
    Step.ofPiece name.toList = .name name := by
  obtain ⟨hempty, hdot, hdots, -⟩ := h
  have hne {s : String} (hs : name ≠ s) : name.toList ≠ s.toList := fun h =>
    hs (String.toList_injective h)
  have h₁ : name.toList ≠ [] := hne hempty
  have h₂ : name.toList ≠ ['.'] := hne hdot
  have h₃ : name.toList ≠ ['.', '.'] := hne hdots
  simp [Step.ofPiece, h₁, h₂, h₃]

theorem toList_path (hplace : place ≠ []) :
    place.path.text.toList = place.reverse.flatMap fun name => '/' :: name.toList := by
  rw [Location.path, if_neg hplace, String.toList_join, List.flatMap_map]
  simp

/-- The path of a place goes down to it name by name. -/
theorem ofPath_path (hspelled : ∀ name ∈ place, Spelled name) (hplace : place ≠ []) :
    Step.ofPath place.path = .stay :: place.reverse.map .name := by
  have hslash : ∀ name ∈ place.reverse, '/' ∉ name.toList := fun name hname =>
    (hspelled name (List.mem_reverse.mp hname)).2.2.2
  have hpieces : (place.reverse.map String.toList).map Step.ofPiece = place.reverse.map .name := by
    rw [List.map_map]
    exact List.map_congr_left fun name hname =>
      Step.ofPiece_of_spelled (hspelled name (List.mem_reverse.mp hname))
  rw [Step.ofPath, toList_path hplace, Path.splitSlash_flatMap hslash, List.map_cons, hpieces]
  rfl

theorem isAbsolute_path : place.path.isAbsolute = true := by
  by_cases hplace : place = []
  · subst hplace
    decide
  · obtain ⟨name, rest, hreverse⟩ := List.exists_cons_of_ne_nil
      (mt List.reverse_eq_nil_iff.mp hplace)
    simp [Path.isAbsolute, toList_path hplace, hreverse]

theorem Regular.check_path (ht : t.Regular) (h : t.get? place = some entry) :
    check place.path = .ok () := by
  by_cases hplace : place = []
  · subst hplace
    rfl
  · have hnul : '\x00' ∉ place.path.text.toList := by
      rw [toList_path hplace, List.mem_flatMap]
      rintro ⟨name, hname, hmem⟩
      have := (ht.legal h name (List.mem_reverse.mp hname)).2.2.2.2.1
      simp [this] at hmem
    have hempty : place.path.text ≠ "" := fun hempty => by
      have habsolute : place.path.isAbsolute = true := isAbsolute_path
      simp [Path.isAbsolute, hempty] at habsolute
    simp [check, hnul, hempty, Nat.not_lt.mpr (ht.short h)]

/-- What a place stands in is a directory, at any height. -/
theorem Regular.above (ht : t.Regular) {names : List String}
    (h : t.get? (names ++ here) = some entry) (hnames : names ≠ []) :
    t.get? here = some .directory := by
  induction names generalizing entry with
  | nil => exact absurd rfl hnames
  | cons name names ih =>
    have htail : t.get? (names ++ here) = some .directory := ht.tail h
    by_cases hnil : names = []
    · simpa [hnil] using htail
    · exact ih htail hnil

/-- Down the names of a place, from any place above it. -/
theorem Regular.leads_names (ht : t.Regular) {names : List String}
    (hentry : t.get? (names.reverse ++ here) = some entry)
    (hlink : ∀ target, entry ≠ .link target) :
    Leads t true (names.reverse ++ here) links here (names.map .name) := by
  induction names generalizing here with
  | nil => exact .stop
  | cons name names ih =>
    rw [List.reverse_cons, List.append_assoc] at hentry ⊢
    have hlegal : LegalName name := ht.legal hentry name (by simp)
    have hfrom : t.get? here = some .directory :=
      ht.above ((List.append_assoc ..).symm ▸ hentry) (by simp)
    refine .name hfrom hlegal.2.2.2.2.2 ?_ ?_ (ih hentry)
    · intro target htarget
      by_cases hnames : names = []
      · subst hnames
        exact absurd (Option.some.inj (hentry.symm.trans htarget)) (hlink target)
      · have := ht.above hentry (by simpa using hnames)
        simp [htarget] at this
    · intro hrest
      have hthere : t.get? (name :: here) = some .directory :=
        ht.above hentry (by simpa using hrest)
      simp [hthere]

theorem locate_ok_iff {p : Path} : t.locate workDir p = .ok place ↔
    check p = .ok () ∧ Leads t true place linkLimit (start workDir p) (Step.ofPath p) := by
  rw [locate, bind_eq_ok, ← walk_ok_iff]
  exact ⟨fun ⟨_, hcheck, hway⟩ => ⟨hcheck, hway⟩, fun ⟨hcheck, hway⟩ => ⟨(), hcheck, hway⟩⟩

/-- The path of a place leads to it. -/
theorem Regular.locate_path (ht : t.Regular) (hentry : t.get? place = some entry)
    (hlink : ∀ target, entry ≠ .link target) : t.locate workDir place.path = .ok place := by
  refine locate_ok_iff.mpr ⟨ht.check_path hentry, ?_⟩
  rw [start, if_pos isAbsolute_path]
  by_cases hplace : place = []
  · subst hplace
    exact .stay rfl (.stay rfl .stop)
  · have hnames : Leads t true (place.reverse.reverse ++ []) linkLimit []
        (place.reverse.map .name) := ht.leads_names (by simpa using hentry) hlink
    rw [ofPath_path (fun name hname => (ht.legal hentry name hname).spelled) hplace]
    exact .stay rfl (by simpa using hnames)

end Tree

namespace Machine

variable {m : Machine} {p : Path} {place : Location} {entry : Entry}

/-- A machine that works in a directory of a regular tree. -/
structure Regular (m : Machine) : Prop where
  tree : m.tree.Regular
  workDir : m.tree.get? m.workDir = some .directory

instance (m : Machine) : Decidable m.Regular :=
  decidable_of_iff (m.tree.Regular ∧ m.tree.get? m.workDir = some .directory)
    ⟨fun ⟨htree, hworkDir⟩ => ⟨htree, hworkDir⟩, fun h => ⟨h.tree, h.workDir⟩⟩

theorem Regular.hasWorkDir (hm : m.Regular) : m.hasWorkDir = true := by
  simp [Machine.hasWorkDir, hm.workDir]

theorem find_ok_iff : m.find p = .ok (place, entry) ↔
    m.tree.locate m.workDir p = .ok place ∧ m.tree.get? place = some entry := by
  rw [find, bind_eq_ok]
  constructor
  · rintro ⟨there, hlocate, h⟩
    split at h
    · next entry' hentry =>
      obtain ⟨rfl, rfl⟩ := Prod.mk.inj (Except.ok.inj h)
      exact ⟨hlocate, hentry⟩
    · exact absurd h throw_ne_ok
  · rintro ⟨hlocate, hentry⟩
    exact ⟨place, hlocate, by rw [hentry]; rfl⟩

/-- What is found is no link. -/
theorem Regular.not_link_of_find (hm : m.Regular) (h : m.find p = .ok (place, entry)) :
    ∀ target, entry ≠ .link target := by
  obtain ⟨hlocate, hentry⟩ := find_ok_iff.mp h
  intro target htarget
  refine hm.tree.not_link (Tree.locate_ok_iff.mp hlocate).2 ?_ target (htarget ▸ hentry)
  intro target'
  rw [Tree.start]
  split <;> simp [hm.workDir]

/-- What is found is found under the path of its place, too. -/
theorem Regular.find_path (hm : m.Regular) (h : m.find p = .ok (place, entry)) :
    m.find place.path = .ok (place, entry) := by
  have hentry := (find_ok_iff.mp h).2
  exact find_ok_iff.mpr ⟨hm.tree.locate_path hentry (hm.not_link_of_find h), hentry⟩

theorem normalize_of_find (h : m.find p = .ok (place, entry)) : m.normalize p = place.path := by
  simp [normalize, canonical, h, bind, Except.bind, pure, Except.pure]

/-- A file is read under its canonical path as it is under the path that led to it. -/
theorem Regular.read_normalize (hm : m.Regular) (h : m.exists? p = true) :
    m.read (m.normalize p) = m.read p := by
  rw [exists?, isOk_iff] at h
  obtain ⟨⟨place, entry⟩, hfind⟩ := h
  rw [normalize_of_find hfind, read, read, hm.find_path hfind, hfind]

/-- What a file can be read as, if it can be read. -/
def seen (m : Machine) (p : Path) : Option ByteArray :=
  (m.read p).toOption

theorem seen_eq_some {content : ByteArray} : m.seen p = some content ↔ m.read p = .ok content := by
  rw [seen]
  cases m.read p <;> simp [Except.toOption]

theorem seen_of_not_exists (h : m.exists? p = false) : m.seen p = none := by
  cases hfind : m.find p with
  | error fault => simp [seen, read, hfind, bind, Except.bind, Except.toOption]
  | ok found =>
    rw [exists?, isOk_iff.mpr ⟨_, hfind⟩] at h
    cases h

/-- A file is seen under its canonical path as it is under the path that led to it. -/
theorem Regular.seen_normalize (hm : m.Regular) (h : m.exists? p = true) :
    m.seen (m.normalize p) = m.seen p := by
  rw [seen, seen, hm.read_normalize h]

theorem seen_of_file {content : ByteArray} {executable : Bool}
    (hlocate : m.tree.locate m.workDir p = .ok place)
    (hfile : m.tree.get? place = some (.file content executable)) : m.seen p = some content := by
  have hfind := find_ok_iff.mpr ⟨hlocate, hfile⟩
  rw [seen_eq_some, read, hfind]
  rfl

end Machine

end SongPreview
