import SongPreview.Toml.Document
import Mathlib.Data.List.Nodup
import Mathlib.Data.Option.Basic

/-!
# Keys are there once

No table of a document has a key twice, at any depth: a table under construction is only changed
at a key that it has, or gets one more entry under a key that it does not have.
-/

namespace SongPreview

namespace Toml

/-- What is found under a key stands there. -/
theorem mem_of_find? {α : Type} {entries : List (String × α)} {key : String} {a : α}
    (h : (entries.find? fun entry => entry.1 = key).map Prod.snd = some a) :
    (key, a) ∈ entries := by
  obtain ⟨entry, hentry, rfl⟩ := Option.map_eq_some_iff.mp h
  have hkey : entry.1 = key := by simpa using List.find?_some hentry
  exact hkey ▸ List.mem_of_find?_eq_some hentry

/-- A value without parts. -/
def Value.isScalar : Value → Bool
  | .array _ | .table _ => false
  | _ => true

/-- Every table in a value has each of its keys once. -/
inductive Value.Keyed : Value → Prop
  | scalar {v : Value} (h : v.isScalar = true) : Keyed v
  | array {items : List Value} (inner : ∀ v ∈ items, Keyed v) : Keyed (.array items)
  | table {entries : List (String × Value)} (once : (entries.map Prod.fst).Nodup)
      (inner : ∀ entry ∈ entries, Keyed entry.2) : Keyed (.table entries)

theorem Value.Keyed.once {entries : List (String × Value)} (h : (Value.table entries).Keyed) :
    (entries.map Prod.fst).Nodup := by
  cases h with
  | scalar hscalar => cases hscalar
  | table once _ => exact once

theorem Value.Keyed.of_mem {entries : List (String × Value)} (h : (Value.table entries).Keyed)
    {entry : String × Value} (hentry : entry ∈ entries) : entry.2.Keyed := by
  cases h with
  | scalar hscalar => cases hscalar
  | table _ inner => exact inner entry hentry

namespace Draft

/-- Every table in a node under construction has each of its keys once. -/
inductive Keyed : Draft → Prop
  | value {v : Value} (h : v.Keyed) : Keyed (.value v)
  | table {origin : Origin} {entries : Entries} (once : (entries.map Prod.fst).Nodup)
      (inner : ∀ entry ∈ entries, Keyed entry.2) : Keyed (.table origin entries)
  | tables {items : List Entries} (once : ∀ entries ∈ items, (entries.map Prod.fst).Nodup)
      (inner : ∀ entries ∈ items, ∀ entry ∈ entries, Keyed entry.2) : Keyed (.tables items)

variable {entries entries' : Entries} {key : String} {node : Draft} {made origin : Origin}
  {edit : Origin → Entries → Option Entries} {path : List String}

/-- The same of the entries of a table. -/
structure AllKeyed (entries : Entries) : Prop where
  once : (entries.map Prod.fst).Nodup
  inner : ∀ entry ∈ entries, Keyed entry.2

theorem AllKeyed.nil : AllKeyed [] :=
  ⟨List.nodup_nil, nofun⟩

theorem AllKeyed.table (h : AllKeyed entries) (origin : Origin) : Keyed (.table origin entries) :=
  .table h.once h.inner

/-- An edit of a table that keeps its keys apart. -/
def Keeps (edit : Origin → Entries → Option Entries) : Prop :=
  ∀ origin entries entries', AllKeyed entries → edit origin entries = some entries' →
    AllKeyed entries'

theorem not_mem_of_find?_eq_none (h : find? entries key = none) : key ∉ entries.map Prod.fst := by
  rw [find?, Option.map_eq_none_iff, List.find?_eq_none] at h
  rintro hmem
  obtain ⟨entry, hentry, rfl⟩ := List.mem_map.mp hmem
  exact h entry hentry (by simp)

theorem mem_put {entry : String × Draft} (h : entry ∈ put key node entries) :
    entry = (key, node) ∨ entry ∈ entries := by
  induction entries with
  | nil => exact .inl (by simpa [put] using h)
  | cons first rest ih =>
    rw [put] at h
    split at h
    · rcases List.mem_cons.mp h with heq | hmem
      · exact .inl heq
      · exact .inr (List.mem_cons_of_mem _ hmem)
    · rcases List.mem_cons.mp h with heq | hmem
      · exact .inr (heq ▸ List.mem_cons_self)
      · exact (ih hmem).imp_right (List.mem_cons_of_mem _)

theorem AllKeyed.put (h : AllKeyed entries) (hnode : Keyed node) (key : String) :
    AllKeyed (put key node entries) := by
  constructor
  · obtain ⟨once, -⟩ := h
    induction entries with
    | nil => simp [Draft.put]
    | cons first rest ih =>
      rw [List.map_cons, List.nodup_cons] at once
      rw [Draft.put]
      split
      · next heq => exact List.nodup_cons.mpr ⟨heq ▸ once.1, once.2⟩
      · next hne =>
        refine List.nodup_cons.mpr ⟨fun hmem => ?_, ih once.2⟩
        obtain ⟨entry, hentry, hkey⟩ := List.mem_map.mp hmem
        rcases mem_put hentry with rfl | hrest
        · exact hne hkey.symm
        · exact once.1 (List.mem_map.mpr ⟨entry, hrest, hkey⟩)
  · intro entry hentry
    rcases mem_put hentry with rfl | hmem
    · exact hnode
    · exact h.inner entry hmem

theorem AllKeyed.append (h : AllKeyed entries) (hnode : Keyed node)
    (hnew : find? entries key = none) : AllKeyed (entries ++ [(key, node)]) := by
  constructor
  · rw [List.map_append, List.nodup_append]
    refine ⟨h.once, by simp, fun a ha b hb hab => ?_⟩
    obtain rfl : b = key := by simpa using hb
    exact not_mem_of_find?_eq_none hnew (hab ▸ ha)
  · intro entry hentry
    rcases List.mem_append.mp hentry with hmem | hlast
    · exact h.inner entry hmem
    · obtain rfl : entry = (key, node) := by simpa using hlast
      exact hnode

theorem AllKeyed.remove (h : AllKeyed entries) (key : String) : AllKeyed (remove key entries) :=
  ⟨(List.filter_sublist.map Prod.fst).nodup h.once,
    fun entry hentry => h.inner entry (List.mem_of_mem_filter hentry)⟩

/-- A table found under a key. -/
theorem AllKeyed.of_table {inner : Entries} (h : AllKeyed entries)
    (hfind : find? entries key = some (.table origin inner)) : AllKeyed inner := by
  cases h.inner _ (mem_of_find? hfind) with
  | table once inner => exact ⟨once, inner⟩

/-- One of several tables found under a key. -/
theorem AllKeyed.of_tables {items : List Entries} {item : Entries} (h : AllKeyed entries)
    (hfind : find? entries key = some (.tables items)) (hitem : item ∈ items) : AllKeyed item := by
  cases h.inner _ (mem_of_find? hfind) with
  | tables once inner => exact ⟨once item hitem, inner item hitem⟩

/-- A change at the end of a path keeps all keys apart if the change itself does. -/
theorem AllKeyed.change (hedit : Keeps edit) (h : AllKeyed entries)
    (hchange : change made edit path origin entries = some entries') : AllKeyed entries' := by
  induction path generalizing origin entries entries' with
  | nil => exact hedit origin entries entries' h hchange
  | cons key path ih =>
    rw [Draft.change] at hchange
    rcases hfind : find? entries key with _ | (_ | ⟨inside, within⟩ | items)
    all_goals rw [hfind] at hchange
    · obtain ⟨inner, hinner, hput⟩ := Option.bind_eq_some_iff.mp hchange
      obtain rfl := Option.some.inj hput
      exact h.put ((ih .nil hinner).table made) key
    · cases hchange
    · obtain ⟨-, -, hguarded⟩ := Option.bind_eq_some_iff.mp hchange
      obtain ⟨inner, hinner, hput⟩ := Option.bind_eq_some_iff.mp hguarded
      obtain rfl := Option.some.inj hput
      exact h.put ((ih (h.of_table hfind) hinner).table _) key
    · obtain ⟨last, hlast, hrest⟩ := Option.bind_eq_some_iff.mp hchange
      obtain ⟨inner, hinner, hput⟩ := Option.bind_eq_some_iff.mp hrest
      obtain rfl := Option.some.inj hput
      have hchanged := ih (h.of_tables hfind (List.mem_of_getLast? hlast)) hinner
      have hitems : ∀ item ∈ items.dropLast ++ [inner], AllKeyed item := by
        intro item hitem
        rcases List.mem_append.mp hitem with hmem | hmem
        · exact h.of_tables hfind (List.dropLast_subset _ hmem)
        · exact List.mem_singleton.mp hmem ▸ hchanged
      exact h.put (.tables (fun item hitem => (hitems item hitem).once)
        fun item hitem => (hitems item hitem).inner) key

theorem AllKeyed.addValue {v : Draft} (h : AllKeyed entries) (hv : Keyed v)
    (hadd : addValue path key v entries = some entries') : AllKeyed entries' := by
  refine h.change (fun origin inner inner' hinner hedit => ?_) hadd
  split at hedit
  · cases hedit
  · next hnot =>
    obtain rfl := Option.some.inj hedit
    rw [not_or, Option.not_isSome_iff_eq_none] at hnot
    exact hinner.append hv hnot.2

theorem finishEntries_eq (entries : Entries) :
    finishEntries entries = entries.map fun entry => (entry.1, finish entry.2) := by
  induction entries with
  | nil => rfl
  | cons entry rest ih => rw [finishEntries, ih, List.map_cons]

theorem finishItems_eq (items : List Entries) :
    finishItems items = items.map fun entries => .table (finishEntries entries) := by
  induction items with
  | nil => rfl
  | cons entries rest ih => rw [finishItems, ih, List.map_cons]

/-- What is made of a node has each key once. -/
theorem Keyed.finish (h : Keyed node) : (finish node).Keyed := by
  have htable {entries : Entries} (once : (entries.map Prod.fst).Nodup)
      (inner : ∀ entry ∈ entries, (Draft.finish entry.2).Keyed) :
      (Value.table (finishEntries entries)).Keyed := by
    rw [finishEntries_eq]
    refine .table ?_ fun entry hentry => ?_
    · rwa [List.map_map, show Prod.fst ∘ (fun entry : String × Draft =>
        (entry.1, Draft.finish entry.2)) = Prod.fst from rfl]
    · obtain ⟨found, hfound, rfl⟩ := List.mem_map.mp hentry
      exact inner found hfound
  induction h with
  | value h => exact h
  | table once _ ih =>
    rw [Draft.finish]
    exact htable once ih
  | tables once _ ih =>
    rw [Draft.finish, finishItems_eq]
    refine .array fun v hv => ?_
    obtain ⟨entries, hentries, rfl⟩ := List.mem_map.mp hv
    exact htable (once entries hentries) (ih entries hentries)

theorem AllKeyed.finishEntries (h : AllKeyed entries) :
    (Value.table (finishEntries entries)).Keyed := by
  simpa only [Draft.finish] using (h.table .written).finish

end Draft

end Toml

/-! ### Scanners -/

namespace Scan

variable {α β : Type} {P : α → Prop} {Q : β → Prop} {s t : Scan α} {next : α → Scan β}

/-- Whatever a scanner reads has a property. -/
def Yields (P : α → Prop) (s : Scan α) : Prop :=
  ∀ text a rest, s text = some (a, rest) → P a

theorem yields_pure {a : α} (h : P a) : Yields P (pure a) := by
  rintro text b rest heq
  obtain ⟨rfl, -⟩ := Prod.mk.inj (Option.some.inj heq)
  exact h

theorem yields_failure : Yields P failure :=
  nofun

theorem Yields.bind (h : Yields P s) (hnext : ∀ a, P a → Yields Q (next a)) :
    Yields Q (s >>= next) := by
  intro text b rest heq
  obtain ⟨⟨a, text'⟩, ha, hb⟩ := Option.bind_eq_some_iff.mp heq
  exact hnext a (h text a text' ha) text' b rest hb

theorem yields_bind (hnext : ∀ a, Yields Q (next a)) : Yields Q (s >>= next) :=
  Yields.bind (P := fun _ => True) (fun _ _ _ _ => trivial) fun a _ => hnext a

theorem Yields.orElse (hs : Yields P s) (ht : Yields P t) : Yields P (s <|> t) := by
  intro text a rest heq
  have heq : (s text).orElse (fun _ => t text) = some (a, rest) := heq
  cases hleft : s text with
  | none => exact ht text a rest (by rwa [hleft] at heq)
  | some found => exact hs text a rest (by rwa [hleft] at heq ⊢)

theorem yields_bounded {scanner : Nat → Scan α} (h : ∀ fuel, Yields P (scanner fuel)) :
    Yields P (bounded scanner) :=
  fun text => h (text.length + 1) text

end Scan

namespace Toml

open Scan (Yields yields_pure yields_failure yields_bind yields_bounded)

/-! ### Values -/

theorem yields_scalar : Yields Value.Keyed scalar := by
  refine .orElse (yields_bind fun _ => yields_bind fun _ => yields_bind fun _ =>
    yields_pure (.scalar rfl)) (yields_bind fun token => ?_)
  split
  · exact yields_pure (.scalar rfl)
  · split
    · exact yields_pure (.scalar rfl)
    · split
      · exact yields_pure (.scalar rfl)
      · exact yields_bind fun _ => yields_pure (.scalar rfl)

theorem yields_arrayItems {value : Scan Value} (hvalue : Yields Value.Keyed value) (fuel : Nat)
    {out : List Value} (hout : ∀ v ∈ out, v.Keyed) :
    Yields (fun items => ∀ v ∈ items, Value.Keyed v) (arrayItems value fuel out) := by
  induction fuel generalizing out with
  | zero => exact yields_failure
  | succ fuel ih =>
    refine yields_bind fun _ => .orElse ?_ ?_
    · exact yields_bind fun _ => yields_pure fun v hv => hout v (List.mem_reverse.mp hv)
    · refine hvalue.bind fun v hv => yields_bind fun _ => ?_
      have hall : ∀ w ∈ v :: out, w.Keyed := List.forall_mem_cons.mpr ⟨hv, hout⟩
      refine .orElse (yields_bind fun _ => ih hall) (yields_bind fun _ => yields_pure ?_)
      exact fun w hw => hall w (List.mem_reverse.mp hw)

theorem yields_entry {value : Scan Value} (hvalue : Yields Value.Keyed value) :
    Yields (fun found => found.2.Keyed) (entry value) :=
  yields_bind fun _ => yields_bind fun _ => yields_bind fun _ =>
    hvalue.bind fun _ hv => yields_pure hv

theorem yields_braceEntries {value : Scan Value} (hvalue : Yields Value.Keyed value) (fuel : Nat)
    {out : Draft.Entries} (hout : Draft.AllKeyed out) :
    Yields Draft.AllKeyed (braceEntries value fuel out) := by
  induction fuel generalizing out with
  | zero => exact yields_failure
  | succ fuel ih =>
    refine yields_bind fun _ => (yields_entry hvalue).bind fun found hfound =>
      yields_bind fun _ => ?_
    split
    · exact yields_failure
    · next hadd =>
      have hall := hout.addValue (.value hfound) hadd
      exact .orElse (yields_bind fun _ => ih hall) (yields_bind fun _ => yields_pure hall)

theorem yields_value (depth : Nat) : Yields Value.Keyed (value depth) := by
  have htext : Yields Value.Keyed (do return .text (← string)) :=
    yields_bind fun _ => yields_pure (.scalar rfl)
  induction depth with
  | zero =>
    rw [value]
    refine yields_bind fun _ => ?_
    split
    · exact yields_failure
    · exact yields_failure
    · exact htext
    · exact htext
    · exact yields_scalar
  | succ depth ih =>
    rw [value]
    refine yields_bind fun _ => ?_
    split
    · exact yields_bind fun _ => Yields.bind
        (yields_bounded fun fuel => yields_arrayItems ih fuel (List.forall_mem_nil _))
        fun items hitems => yields_pure (.array hitems)
    · refine yields_bind fun _ => yields_bind fun _ => .orElse ?_ ?_
      · exact yields_bind fun _ => yields_pure (.table List.nodup_nil nofun)
      · exact Yields.bind (yields_bounded fun fuel => yields_braceEntries ih fuel .nil)
          fun entries hentries => yields_pure hentries.finishEntries
    · exact htext
    · exact htext
    · exact yields_scalar

/-! ### Documents -/

namespace Reading

variable {r r' : Reading} {path : List String} {last : String}

/-- Every table read so far has each of its keys once. -/
structure Keyed (r : Reading) : Prop where
  root : Draft.AllKeyed r.root
  opened : Draft.AllKeyed r.opened

theorem Keyed.close (h : r.Keyed) (hclose : r.close = some r') : r'.Keyed := by
  rw [Reading.close] at hclose
  split at hclose
  · obtain rfl := Option.some.inj hclose
    exact ⟨h.opened, .nil⟩
  · next last _ =>
    obtain ⟨root, hroot, hput⟩ := Option.bind_eq_some_iff.mp hclose
    obtain rfl := Option.some.inj hput
    refine ⟨h.root.change (fun _ entries entries' hentries hedit => ?_) hroot, .nil⟩
    split at hedit
    · next items hfind =>
      split at hedit
      · obtain rfl := Option.some.inj hedit
        have hitems : ∀ item ∈ items ++ [r.opened], Draft.AllKeyed item := by
          intro item hitem
          rcases List.mem_append.mp hitem with hmem | hmem
          · exact hentries.of_tables hfind hmem
          · exact List.mem_singleton.mp hmem ▸ h.opened
        exact hentries.put (.tables (fun item hitem => (hitems item hitem).once)
          fun item hitem => (hitems item hitem).inner) last
      · cases hedit
    · cases hedit
    · next hfind =>
      obtain rfl := Option.some.inj hedit
      exact hentries.append (h.opened.table _) hfind

theorem Keyed.openItem (h : r.Keyed) (hopen : r.openItem path last = some r') : r'.Keyed := by
  obtain ⟨closed, hclose, hrest⟩ := Option.bind_eq_some_iff.mp hopen
  obtain ⟨root, hroot, hput⟩ := Option.bind_eq_some_iff.mp hrest
  obtain rfl := Option.some.inj hput
  refine ⟨(h.close hclose).root.change (fun _ entries entries' hentries hedit => ?_) hroot, .nil⟩
  split at hedit
  · next hfind =>
    obtain rfl := Option.some.inj hedit
    exact hentries.append (.tables nofun nofun) hfind
  · obtain rfl := Option.some.inj hedit
    exact hentries
  · cases hedit

theorem lookUp_keyed {entries inside : Draft.Entries} (h : Draft.AllKeyed entries)
    (hlook : openTable.lookUp path entries = some inside) : Draft.AllKeyed inside := by
  induction path generalizing entries with
  | nil => exact Option.some.inj hlook ▸ h
  | cons key path ih =>
    rw [openTable.lookUp] at hlook
    split at hlook
    · next hfind => exact ih (h.of_table hfind) hlook
    · next hfind =>
      obtain ⟨item, hitem, hlook⟩ := Option.bind_eq_some_iff.mp hlook
      exact ih (h.of_tables hfind (List.mem_of_getLast? hitem)) hlook
    · cases hlook

theorem Keyed.openTable (h : r.Keyed) (hopen : r.openTable path last = some r') : r'.Keyed := by
  obtain ⟨closed, hclose, hrest⟩ := Option.bind_eq_some_iff.mp hopen
  obtain ⟨root, hroot, hrest⟩ := Option.bind_eq_some_iff.mp hrest
  obtain ⟨inside, hinside, hrest⟩ := Option.bind_eq_some_iff.mp hrest
  obtain ⟨removed, hremoved, hput⟩ := Option.bind_eq_some_iff.mp hrest
  obtain rfl := Option.some.inj hput
  have hchanged : Draft.AllKeyed root := by
    refine (h.close hclose).root.change (fun _ entries entries' hentries hedit => ?_) hroot
    split at hedit
    · exact Option.some.inj hedit ▸ hentries
    · exact Option.some.inj hedit ▸ hentries
    · cases hedit
  refine ⟨hchanged.change (fun _ entries entries' hentries hedit => ?_) hremoved, ?_⟩
  · exact Option.some.inj hedit ▸ hentries.remove last
  · split
    · next hfind => exact (lookUp_keyed hchanged hinside).of_table hfind
    · exact .nil

end Reading

theorem yields_line {r : Reading} (h : r.Keyed) : Yields Reading.Keyed (line r) := by
  -- whatever a line opens, the rest of the line changes nothing
  have hrest : ∀ {rest : Option Reading → Scan Reading}, rest none = failure →
      (∀ r', rest (some r') = lineEnd >>= fun _ => pure r') →
      ∀ opened, (∀ r', opened = some r' → r'.Keyed) → Yields Reading.Keyed (rest opened) := by
    intro rest hnone hsome opened hopened
    cases opened with
    | none => exact hnone ▸ yields_failure
    | some r' => exact hsome r' ▸ yields_bind fun _ => yields_pure (hopened r' rfl)
  have hkept : ∀ r', some r = some r' → r'.Keyed := fun r' heq => Option.some.inj heq ▸ h
  refine yields_bind fun _ => yields_bind fun _ => ?_
  dsimp only
  split
  · refine Yields.bind (P := fun opened => ∀ r', opened = some r' → r'.Keyed) (.orElse ?_ ?_)
      (hrest rfl fun _ => rfl)
    · exact yields_bind fun _ => yields_bind fun _ => yields_bind fun _ =>
        yields_pure fun _ => h.openItem
    · exact yields_bind fun _ => yields_bind fun _ => yields_bind fun _ =>
        yields_pure fun _ => h.openTable
  iterate 4 exact (yields_pure hkept).bind (hrest rfl fun _ => rfl)
  · refine (yields_entry (yields_value _)).bind fun found hfound => .bind (yields_pure ?_)
      (hrest rfl fun _ => rfl)
    intro r' heq
    obtain ⟨opened, hadd, rfl⟩ := Option.map_eq_some_iff.mp heq
    exact ⟨h.root, h.opened.addValue (.value hfound) hadd⟩

theorem yields_lines (fuel : Nat) {r : Reading} (h : r.Keyed) :
    Yields Reading.Keyed (lines fuel r) := by
  induction fuel generalizing r with
  | zero => exact yields_failure
  | succ fuel ih =>
    exact .orElse (yields_bind fun _ => yields_pure h) ((yields_line h).bind fun _ => ih)

/-- **No table of a document has a key twice.** -/
theorem read?_keyed {document : String} {entries : List (String × Value)}
    (h : read? document = some entries) : (Value.table entries).Keyed := by
  obtain ⟨r, hlines, hrest⟩ := Option.bind_eq_some_iff.mp h
  obtain ⟨closed, hclose, hfinish⟩ := Option.bind_eq_some_iff.mp hrest
  obtain rfl := Option.some.inj hfinish
  have hempty : Reading.Keyed {} := ⟨.nil, .nil⟩
  rw [Scan.whole] at hlines
  split at hlines
  · next hread =>
    obtain rfl := Option.some.inj hlines
    have hr := yields_bounded (fun fuel => yields_lines fuel hempty) _ _ _ hread
    exact (hr.close hclose).root.finishEntries
  · cases hlines

end Toml

end SongPreview
