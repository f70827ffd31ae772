import Mathlib.Data.List.Nodup
import SongPreview.Proofs.Json.Passing

/-!
# Reading records

Readers of strings, lists and records read every way to write a value. A record is read
member by member: after each of them the fields named so far have their values, and the
others still have the values they have by themselves.
-/

namespace SongPreview.Json

open Reader

/-- A reader reads every way to write a value, and leaves what stands behind it. -/
structure Reads {α : Type} (reader : Reader α) (Writes : α → List Char → Prop) : Prop where
  skips : Skips reader
  begins : ∀ {a : α} {written : List Char}, Writes a written → Begins written
  read : ∀ {a : α} {written : List Char}, Writes a written → ∀ rest,
    reader (written ++ rest) = .ok (a, rest)

/-! ## Strings -/

theorem Quotes.begins {s : String} {written : List Char} (h : Quotes s written) :
    Begins written := by
  obtain ⟨letters, -, rfl⟩ := h
  exact ⟨'"', _, rfl, by decide, by decide⟩

theorem text_reads : Reads text Quotes where
  skips := (skips_next _).bind _
  begins := Quotes.begins
  read := by
    intro s written h rest
    obtain ⟨inner, rfl, hread⟩ := h.read
    rw [text, List.cons_append, bind_of_ok (next_cons (by decide) _)]
    exact (bind_of_ok (advance_cons _ _) _).trans (hread rest)

theorem textOrNull_reads : Reads textOrNull QuotesOrNull where
  skips := skips_next?.bind _
  begins := by
    intro s written h
    cases h with
    | null => exact ⟨'n', _, rfl, by decide, by decide⟩
    | text h => exact h.begins
  read := by
    intro s written h rest
    cases h with
    | null =>
      rw [textOrNull, List.cons_append, bind_of_ok (next?_cons (by decide) _), if_pos rfl,
        bind_of_ok (advance_cons _ _), bind_of_ok (word_append ['u', 'l', 'l'] rest)]
      rfl
    | text h =>
      have htext := text_reads.read h rest
      obtain ⟨inner, rfl, -⟩ := h.read
      rw [List.cons_append] at htext ⊢
      rw [textOrNull, bind_of_ok (next?_cons (by decide) _), if_neg (by decide), bind_of_ok htext]
      rfl

/-! ## Lists -/

section

variable {α : Type} {first : Bool} {lead item b s rest : List Char} {n : Nat}

theorem anotherElement_lead (h : Lead first lead) (hitem : Begins item) (s : List Char) :
    anotherElement first (lead ++ (item ++ s)) = .ok (true, item ++ s) := by
  obtain ⟨c, t, rfl, hc, hclose⟩ := hitem
  have hother : c ≠ ']' := fun h => hclose (h ▸ List.mem_cons_self)
  cases h with
  | first hb =>
    rw [anotherElement, List.cons_append, bind_of_ok (next_blanks hb hc _)]
    split
    · contradiction
    · rfl
  | next hb hb' =>
    rw [anotherElement, List.append_assoc, List.cons_append,
      bind_of_ok (next_blanks hb (by decide) _)]
    refine (bind_of_ok (advance_cons _ _) _).trans ?_
    rw [List.cons_append, bind_of_ok (next_blanks hb' hc _), if_neg hother]
    rfl

theorem anotherElement_close (hb : Blanks b) (rest : List Char) :
    anotherElement first (b ++ ']' :: rest) = .ok (false, ']' :: rest) := by
  rw [anotherElement, bind_of_ok (next_blanks hb (by decide) rest)]
  rfl

/-- The elements that are left in a list are read one by one. -/
theorem elements_listed {element : Reader α} {Writes : α → List Char → Prop}
    (h : Reads element Writes) {values : List α} {items : List (List Char)} {inner : List Char}
    (hvalues : List.Forall₂ Writes values items) (hlisted : Listed first items inner)
    (hn : inner.length < n) (out : List α) (rest : List Char) :
    elements element n first out (inner ++ ']' :: rest) = .ok (out.reverse ++ values, rest) := by
  obtain ⟨n, rfl⟩ : ∃ m, n = m + 1 := ⟨n - 1, by omega⟩
  induction hvalues generalizing n first inner out with
  | nil =>
    cases hlisted with
    | nil hb =>
      rw [elements, bind_of_ok (anotherElement_close hb rest), List.append_nil]
      rfl
  | @cons value item values items hvalue _ ih =>
    cases hlisted with
    | @cons _ lead _ more _ hlead hmore =>
      obtain ⟨c, t, rfl, -⟩ := h.begins hvalue
      simp only [List.length_append, List.length_cons] at hn
      obtain ⟨m, rfl⟩ : ∃ m, n = m + 1 := ⟨n - 1, by omega⟩
      rw [elements, List.append_assoc, List.append_assoc,
        bind_of_ok (anotherElement_lead hlead (h.begins hvalue) _), if_pos rfl,
        bind_of_ok (h.read hvalue _), ih hmore (value :: out) m (by omega), List.reverse_cons,
        List.append_assoc, List.singleton_append]

theorem ListOf.begins {Writes : α → List Char → Prop} {values : List α} {written : List Char}
    (h : ListOf Writes values written) : Begins written := by
  obtain ⟨items, -, inner, -, rfl⟩ := h
  exact ⟨'[', _, rfl, by decide, by decide⟩

/-- A list is read if its elements are. -/
theorem list_reads {element : Reader α} {Writes : α → List Char → Prop}
    (h : Reads element Writes) : Reads (list element) (ListOf Writes) where
  skips := (skips_next _).bind _
  begins := ListOf.begins
  read := by
    rintro values written ⟨items, hvalues, inner, hlisted, rfl⟩ rest
    rw [list, List.cons_append, List.append_assoc, List.singleton_append,
      bind_of_ok (next_cons (by decide) _)]
    refine (bind_of_ok (advance_cons _ _) _).trans ?_
    refine elements_listed h hvalues hlisted ?_ [] rest
    simp only [List.length_append, List.length_cons]
    omega

end

/-! ## Records -/

/-- A field reads every way to write its value into its own place in the record. -/
structure Fills {σ : Type} (slots : List (Slot σ)) (slot : Slot σ) (field : Field σ) : Prop where
  name : field.name = slot.name
  read : ∀ {a : slot.α} {written b : List Char}, slot.Writes a written → Blanks b →
    ∀ record rest, ∃ filled, field.read record (b ++ (written ++ rest)) = .ok (filled, rest) ∧
      slot.get filled = a ∧
      ∀ other ∈ slots, other.name ≠ slot.name → other.get filled = other.get record

/-- A field that reads a value and puts it into the record. -/
theorem Fills.of_reads {σ : Type} {slots : List (Slot σ)} {slot : Slot σ} {reader : Reader slot.α}
    (h : Reads reader slot.Writes) {put : σ → slot.α → σ}
    (hget : ∀ record a, slot.get (put record a) = a)
    (hother : ∀ record a, ∀ other ∈ slots, other.name ≠ slot.name →
      other.get (put record a) = other.get record) :
    Fills slots slot ⟨slot.name, fun record => return put record (← reader)⟩ where
  name := rfl
  read := by
    intro a written b hwritten hb record rest
    refine ⟨put record a, ?_, hget record a, hother record a⟩
    have hread : reader (b ++ (written ++ rest)) = .ok (a, rest) := by
      rw [h.skips b _ hb, h.read hwritten]
    exact bind_of_ok hread _

/-- The fields of a reader are those of the object, and make up the record. -/
structure Schema {σ : Type} (slots : List (Slot σ)) (fields : List (Field σ)) (default : σ) :
    Prop where
  fills : List.Forall₂ (Fills slots) slots fields
  nodup : (slots.map Slot.name).Nodup
  default : ∀ slot ∈ slots, slot.get default = slot.default
  ext : ∀ {v w : σ}, (∀ slot ∈ slots, slot.get v = slot.get w) → v = w

section

variable {σ : Type} {slots : List (Slot σ)} {fields : List (Field σ)} {default : σ}

/-- The field of a known name is found. -/
theorem find_known {part : List (Slot σ)} (h : List.Forall₂ (Fills slots) part fields)
    (hnodup : (part.map Slot.name).Nodup) {slot : Slot σ} (hslot : slot ∈ part) :
    ∃ field, fields.find? (fun f => f.name = slot.name) = some field ∧
      Fills slots slot field := by
  induction h with
  | nil => cases hslot
  | @cons first field part fields hfills _ ih =>
    rw [List.map_cons, List.nodup_cons] at hnodup
    rcases List.mem_cons.mp hslot with rfl | hslot
    · exact ⟨field, List.find?_cons_of_pos (by simpa using hfills.name), hfills⟩
    · have hother : first.name ≠ slot.name := by
        intro hsame
        exact hnodup.1 (hsame ▸ List.mem_map_of_mem hslot)
      rw [List.find?_cons_of_neg (by simpa [hfills.name] using hother)]
      exact ih hnodup.2 hslot

/-- No field is found for another name. -/
theorem find_unknown {part : List (Slot σ)} (h : List.Forall₂ (Fills slots) part fields)
    {name : String} (hname : ¬ Known part name) :
    fields.find? (fun f => f.name = name) = none := by
  induction h with
  | nil => rfl
  | @cons slot field part fields hfills _ ih =>
    have hother : slot.name ≠ name := fun h => hname ⟨slot, List.mem_cons_self, h⟩
    rw [List.find?_cons_of_neg (by simpa [hfills.name] using hother)]
    exact ih fun ⟨slot, hslot, hsame⟩ => hname ⟨slot, List.mem_cons_of_mem _ hslot, hsame⟩

/-- A record has the values of `v` in the fields that are named so far, and in the
others those they have by themselves. -/
def Filled (slots : List (Slot σ)) (v : σ) (names : List String) (record : σ) : Prop :=
  ∀ slot ∈ slots, slot.get record = if slot.name ∈ names then slot.get v else slot.default

theorem Filled.congr {v record : σ} {names names' : List String}
    (h : Filled slots v names record)
    (hsame : ∀ slot ∈ slots, (slot.name ∈ names ↔ slot.name ∈ names')) :
    Filled slots v names' record := by
  intro slot hslot
  rw [h slot hslot]
  simp only [hsame slot hslot]

/-- A member is read into its field. -/
theorem Filled.fill {v record filled : σ} {names : List String} (h : Filled slots v names record)
    {slot : Slot σ} (hnodup : (slots.map Slot.name).Nodup) (hslot : slot ∈ slots)
    (hget : slot.get filled = slot.get v)
    (hother : ∀ other ∈ slots, other.name ≠ slot.name → other.get filled = other.get record) :
    Filled slots v (slot.name :: names) filled := by
  intro other hmem
  by_cases hsame : other.name = slot.name
  · obtain rfl : other = slot := List.inj_on_of_nodup_map hnodup hmem hslot hsame
    rw [if_pos List.mem_cons_self, hget]
  · rw [hother other hmem hsame, h other hmem]
    simp only [List.mem_cons, hsame, false_or]

end

section

variable {σ : Type} {slots : List (Slot σ)} {fields : List (Field σ)} {first : Bool}
  {lead b s rest : List Char} {n : Nat}

theorem anotherMember_lead (h : Lead first lead) (s : List Char) :
    anotherMember first (lead ++ '"' :: s) = .ok (true, '"' :: s) := by
  cases h with
  | first hb =>
    rw [anotherMember, bind_of_ok (next_blanks hb (by decide) _)]
    rfl
  | next hb hb' =>
    rw [anotherMember, List.append_assoc, List.cons_append,
      bind_of_ok (next_blanks hb (by decide) _)]
    refine (bind_of_ok (advance_cons _ _) _).trans ?_
    rw [bind_of_ok (next_blanks hb' (by decide) _)]
    rfl

theorem anotherMember_close (hb : Blanks b) (rest : List Char) :
    anotherMember first (b ++ '\x7d' :: rest) = .ok (false, '\x7d' :: rest) := by
  rw [anotherMember, bind_of_ok (next_blanks hb (by decide) rest)]
  rfl

/-- A member that is not known is passed over. -/
theorem members_unknown {name : String} {key value : List Char} (hlead : Lead first lead)
    (hkey : Key (Quotes name) key) (hfind : fields.find? (fun f => f.name = name) = none)
    (hvalue : IsValue value) (hrest : Apart rest) (seen : List String) (record : σ) :
    members fields (n + 1) first seen record (lead ++ (key ++ (value ++ rest))) =
      members fields n false seen record rest := by
  obtain ⟨quoted, b, b', hquoted, hb, hb', rfl⟩ := hkey
  obtain ⟨inner, rfl, hread⟩ := hquoted.read
  simp only [List.append_assoc, List.cons_append]
  rw [members, bind_of_ok (anotherMember_lead hlead _), if_pos rfl, bind_of_ok (advance_cons _ _),
    bind_of_ok (hread _), hfind]
  refine (bind_of_ok (colon_blanks hb _) _).trans ?_
  rw [bind_of_ok (hvalue.pass hb' hrest)]

/-- A member that is known is read into its field. -/
theorem members_known {slot : Slot σ} {field : Field σ} {key value : List Char}
    (hlead : Lead first lead) (hkey : Key (Quotes slot.name) key)
    (hfind : fields.find? (fun f => f.name = slot.name) = some field)
    (hfills : Fills slots slot field) {a : slot.α} (hvalue : slot.Writes a value)
    {seen : List String} (hseen : slot.name ∉ seen) (record : σ) :
    ∃ filled, members fields (n + 1) first seen record (lead ++ (key ++ (value ++ rest))) =
        members fields n false (slot.name :: seen) filled rest ∧
      slot.get filled = a ∧
      ∀ other ∈ slots, other.name ≠ slot.name → other.get filled = other.get record := by
  obtain ⟨quoted, b, b', hquoted, hb, hb', rfl⟩ := hkey
  obtain ⟨inner, rfl, hread⟩ := hquoted.read
  obtain ⟨filled, hfill, hget⟩ := hfills.read hvalue hb' record rest
  refine ⟨filled, ?_, hget⟩
  simp only [List.append_assoc, List.cons_append]
  rw [members, bind_of_ok (anotherMember_lead hlead _), if_pos rfl, bind_of_ok (advance_cons _ _),
    bind_of_ok (hread _), hfind]
  simp only [if_neg hseen]
  rw [bind_of_ok (colon_blanks hb _), bind_of_ok hfill]

/-- A member is not empty, so a round that reads one leaves enough rounds for the rest. -/
theorem rounds_left {name : String} {key value more : List Char} (hkey : Key (Quotes name) key)
    (hn : (lead ++ (Member.written ⟨name, key, value⟩ ++ more)).length < n + 1) :
    ∃ k, n = k + 1 ∧ more.length < k + 1 := by
  obtain ⟨c, t, rfl, -⟩ := hkey.begins Quotes.begins
  simp only [Member.written, List.length_append, List.length_cons] at hn
  exact ⟨n - 1, by omega, by omega⟩

/-- The members that are left in an object are read one by one. -/
theorem members_listed {default : σ} (h : Schema slots fields default) {v : σ} {ms : List Member}
    {inner : List Char} (hfit : Fit slots v ms)
    (hlisted : Listed first (ms.map Member.written) inner) (hn : inner.length < n)
    (seen : List String) (hseen : ∀ slot ∈ slots, slot.name ∈ ms.map Member.name → slot.name ∉ seen)
    {record : σ} (hrecord : Filled slots v seen record) (rest : List Char) :
    ∃ read, members fields n first seen record (inner ++ '\x7d' :: rest) = .ok (read, rest) ∧
      Filled slots v (seen ++ ms.map Member.name) read := by
  obtain ⟨n, rfl⟩ : ∃ m, n = m + 1 := ⟨n - 1, by omega⟩
  -- the members that are still to come name no field of those in `seen`
  induction hfit generalizing n first inner seen record with
  | nil =>
    cases hlisted with
    | nil hb =>
      refine ⟨record, ?_, by simpa using hrecord⟩
      rw [members, bind_of_ok (anotherMember_close hb rest)]
      rfl
  | @known slot key value ms hslot hkey hvalue hnew _ ih =>
    cases hlisted with
    | @cons _ lead _ more _ hlead hmore =>
      obtain ⟨n, rfl, hleft⟩ := rounds_left hkey hn
      obtain ⟨field, hfind, hfills⟩ := find_known h.fills h.nodup hslot
      obtain ⟨filled, hmember, hget, hother⟩ := members_known hlead hkey hfind hfills hvalue
        (hseen slot hslot List.mem_cons_self) record
      have hseen : ∀ other ∈ slots, other.name ∈ ms.map Member.name →
          other.name ∉ slot.name :: seen := by
        intro other hmem hname
        rw [List.mem_cons, not_or]
        exact ⟨fun hsame => hnew (hsame ▸ hname), hseen other hmem (List.mem_cons_of_mem _ hname)⟩
      obtain ⟨read, hread, hfilled⟩ := ih hmore (slot.name :: seen) hseen
        (hrecord.fill h.nodup hslot hget hother) n hleft
      refine ⟨read, ?_, hfilled.congr fun _ _ => ?_⟩
      · simp only [Member.written, List.append_assoc]
        exact hmember.trans hread
      · simp only [List.mem_append, List.mem_cons, List.map_cons]
        tauto
  | @unknown name key value ms hname hkey hvalue _ ih =>
    cases hlisted with
    | @cons _ lead _ more _ hlead hmore =>
      obtain ⟨n, rfl, hleft⟩ := rounds_left hkey hn
      have hmember := members_unknown (n := n + 1) hlead hkey (find_unknown h.fills hname) hvalue
        (apart_listed hmore .object rest) seen record
      obtain ⟨read, hread, hfilled⟩ := ih hmore seen
        (fun slot hslot hknown => hseen slot hslot (List.mem_cons_of_mem _ hknown)) hrecord n
        hleft
      refine ⟨read, ?_, hfilled.congr fun slot hslot => ?_⟩
      · simp only [Member.written, List.append_assoc]
        exact hmember.trans hread
      · have hother : slot.name ≠ name := fun hsame => hname ⟨slot, hslot, hsame⟩
        simp only [List.mem_append, List.mem_cons, List.map_cons, hother, false_or]

/-- A record is read however it is written. -/
theorem record_reads {default : σ} (h : Schema slots fields default) (name : String) :
    Reads (record name fields default) (ObjectOf slots) where
  skips := (skips_next _).bind _
  begins := by
    rintro v written ⟨members, -, -, inner, -, rfl⟩
    exact ⟨'\x7b', _, rfl, by decide, by decide⟩
  read := by
    rintro v written ⟨ms, hfit, homitted, inner, hlisted, rfl⟩ rest
    have hrounds : inner.length < (inner ++ '\x7d' :: rest).length + 1 := by
      simp only [List.length_append, List.length_cons]
      omega
    obtain ⟨read, hread, hget⟩ := members_listed h hfit hlisted hrounds [] (by simp)
      (fun slot hslot => by simpa using h.default slot hslot) rest
    have hsame : read = v := by
      refine h.ext fun slot hslot => ?_
      rw [hget slot hslot]
      split
      · rfl
      · exact (homitted slot hslot (by assumption)).symm
    rw [record, List.cons_append, List.append_assoc, List.singleton_append,
      bind_of_ok (next_cons (by decide) _)]
    refine (bind_of_ok (advance_cons _ _) _).trans ?_
    rw [← hsame]
    exact hread

end

end SongPreview.Json
