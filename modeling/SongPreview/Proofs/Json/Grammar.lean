import Mathlib.Data.List.Forall2
import Mathlib.Tactic.Choose
import SongPreview.Json.Reader

/-!
# The grammar of JSON

What a JSON text is, apart from the readers of this program: strings with every escape
and with the characters that they stand for, numbers, lists and objects of any depth,
and blanks between any two tokens. An object that gives the fields of a record is
described by what may stand behind each name; the order of the members is free, a field
may be left out where it has the value it has by itself, and other members may hold
anything.
-/

namespace SongPreview.Json

/-! ## Strings -/

/-- Blanks between tokens. -/
def Blanks (s : List Char) : Prop := ∀ c ∈ s, c ∈ [' ', '\t', '\n', '\r']

instance : DecidablePred Blanks := fun s => List.decidableBAll _ s

/-- The hexadecimal digits and their values. -/
def hexDigits : List (Char × Nat) := [
  ('0', 0), ('1', 1), ('2', 2), ('3', 3), ('4', 4), ('5', 5), ('6', 6), ('7', 7), ('8', 8),
  ('9', 9), ('a', 10), ('b', 11), ('c', 12), ('d', 13), ('e', 14), ('f', 15), ('A', 10), ('B', 11),
  ('C', 12), ('D', 13), ('E', 14), ('F', 15)]

/-- The letters that may stand behind a backslash, and what they stand for there. -/
def shortEscapes : List (Char × Char) := [
  ('"', '"'), ('\\', '\\'), ('/', '/'), ('b', '\x08'), ('f', '\x0c'), ('n', '\n'), ('r', '\r'),
  ('t', '\t')]

/-- Four hexadecimal digits and their value. -/
inductive HexUnit : List Char → Nat → Prop
  | digits {a b c d : Char} {p q r s : Nat} (ha : (a, p) ∈ hexDigits) (hb : (b, q) ∈ hexDigits)
      (hc : (c, r) ∈ hexDigits) (hd : (d, s) ∈ hexDigits) :
      HexUnit [a, b, c, d] (((p * 16 + q) * 16 + r) * 16 + s)

/-- A character that stands for itself in a string. -/
def StandsForItself (c : Char) : Prop := ' ' ≤ c ∧ c ≠ '"' ∧ c ≠ '\\'

instance : DecidablePred StandsForItself := fun c =>
  inferInstanceAs (Decidable (' ' ≤ c ∧ c ≠ '"' ∧ c ≠ '\\'))

/-- Characters that stand for themselves. -/
def Unescaped (s : List Char) : Prop := ∀ c ∈ s, StandsForItself c

instance : DecidablePred Unescaped := fun s => List.decidableBAll _ s

/-- The ways to write a character in a string. -/
inductive Letter : List Char → Char → Prop
  | plain {c : Char} (h : StandsForItself c) : Letter [c] c
  | short {e c : Char} (h : (e, c) ∈ shortEscapes) : Letter ['\\', e] c
  | unit {digits : List Char} {c : Char} (h : HexUnit digits c.toNat) :
      Letter ('\\' :: 'u' :: digits) c
  | pair {high low : List Char} {m n : Nat} {c : Char} (hhigh : HexUnit high m)
      (hlow : HexUnit low n) (hm : 0xD800 ≤ m ∧ m ≤ 0xDBFF) (hn : 0xDC00 ≤ n ∧ n ≤ 0xDFFF)
      (hc : c.toNat = 0x10000 + (m - 0xD800) * 0x400 + (n - 0xDC00)) :
      Letter ('\\' :: 'u' :: (high ++ '\\' :: 'u' :: low)) c

/-- The ways to write the characters of a string. -/
inductive Spells : List Char → List Char → Prop
  | nil : Spells [] []
  | cons {written more cs : List Char} {c : Char} (h : Letter written c) (hmore : Spells more cs) :
      Spells (written ++ more) (c :: cs)

/-- Characters that stand for themselves may be written so. -/
theorem Spells.plain {cs : List Char} (h : Unescaped cs) : Spells cs cs := by
  induction cs with
  | nil => exact .nil
  | cons c cs ih =>
    have hmore := ih fun d hd => h d (List.mem_cons_of_mem _ hd)
    exact List.singleton_append ▸ .cons (.plain (h c List.mem_cons_self)) hmore

theorem Spells.append {written written' cs cs' : List Char} (h : Spells written cs)
    (h' : Spells written' cs') : Spells (written ++ written') (cs ++ cs') := by
  induction h with
  | nil => exact h'
  | cons hletter _ ih =>
    rw [List.append_assoc]
    exact .cons hletter ih

/-- A string as it may be written. -/
def Quotes (s : String) (written : List Char) : Prop :=
  ∃ letters, Spells letters s.toList ∧ written = '"' :: (letters ++ ['"'])

/-- A character or a unit in a string that need not stand for any text: the units may be
halves of surrogate pairs. -/
inductive Glyph : List Char → Prop
  | plain {c : Char} (h : StandsForItself c) : Glyph [c]
  | short {e c : Char} (h : (e, c) ∈ shortEscapes) : Glyph ['\\', e]
  | unit {digits : List Char} {n : Nat} (h : HexUnit digits n) : Glyph ('\\' :: 'u' :: digits)

/-- A string between its quotes, whether or not it stands for a text. -/
def IsQuoted (written : List Char) : Prop :=
  ∃ glyphs : List (List Char), (∀ g ∈ glyphs, Glyph g) ∧
    written = '"' :: (glyphs.flatten ++ ['"'])

/-! ## Numbers -/

/-- Digits, at least one. -/
def Digits (s : List Char) : Prop := s ≠ [] ∧ ∀ c ∈ s, c.isDigit

instance : DecidablePred Digits := fun s =>
  @instDecidableAnd _ _ inferInstance (List.decidableBAll _ s)

/-- The digits in front of a point: none but a single zero begins with a zero. -/
def IsWhole (s : List Char) : Prop := Digits s ∧ (s.head? = some '0' → s = ['0'])

/-- A point and digits, or nothing. -/
inductive IsFraction : List Char → Prop
  | none : IsFraction []
  | some {ds : List Char} (h : Digits ds) : IsFraction ('.' :: ds)

/-- An exponent, or nothing. -/
inductive IsExponent : List Char → Prop
  | none : IsExponent []
  | some {e : Char} {sign ds : List Char} (he : e ∈ ['e', 'E'])
      (hsign : sign ∈ [[], ['+'], ['-']]) (h : Digits ds) : IsExponent (e :: (sign ++ ds))

/-- A number. -/
def IsNumber (s : List Char) : Prop :=
  ∃ sign whole fraction exponent, sign ∈ [[], ['-']] ∧ IsWhole whole ∧ IsFraction fraction ∧
    IsExponent exponent ∧ s = sign ++ (whole ++ (fraction ++ exponent))

/-! ## Lists and objects -/

/-- What stands in front of an item: blanks, and a comma unless it is the first item. -/
inductive Lead : Bool → List Char → Prop
  | first {b : List Char} (hb : Blanks b) : Lead true b
  | next {b b' : List Char} (hb : Blanks b) (hb' : Blanks b') : Lead false (b ++ ',' :: b')

/-- Items with commas between them, and blanks around the items. There is a comma in
front of the first item too, unless it is `first` of all. -/
inductive Listed : Bool → List (List Char) → List Char → Prop
  | nil {first : Bool} {b : List Char} (hb : Blanks b) : Listed first [] b
  | cons {first : Bool} {lead item more : List Char} {items : List (List Char)}
      (hlead : Lead first lead) (hmore : Listed false items more) :
      Listed first (item :: items) (lead ++ (item ++ more))

/-- Items between brackets. -/
def Enclosed (opening closing : Char) (items : List (List Char)) (written : List Char) : Prop :=
  ∃ inner, Listed true items inner ∧ written = opening :: (inner ++ [closing])

/-- What stands in front of the value of a member, up to the value: the name, which is
one of the texts in `Name`, and a colon. -/
def Key (Name : List Char → Prop) (written : List Char) : Prop :=
  ∃ name b b', Name name ∧ Blanks b ∧ Blanks b' ∧ written = name ++ (b ++ ':' :: b')

/-- A name may be written without escapes. -/
theorem Key.plain (name : String) {b b' : List Char} (h : Unescaped name.toList) (hb : Blanks b)
    (hb' : Blanks b') :
    Key (Quotes name) ('"' :: (name.toList ++ ['"']) ++ (b ++ ':' :: b')) :=
  ⟨_, b, b', ⟨name.toList, .plain h, rfl⟩, hb, hb', rfl⟩

/-- A JSON value. -/
inductive IsValue : List Char → Prop
  | word {s : List Char}
      (h : s ∈ [['n', 'u', 'l', 'l'], ['t', 'r', 'u', 'e'], ['f', 'a', 'l', 's', 'e']]) : IsValue s
  | number {s : List Char} (h : IsNumber s) : IsValue s
  | text {s : List Char} (h : IsQuoted s) : IsValue s
  | list {items : List (List Char)} {s : List Char} (hitems : ∀ item ∈ items, IsValue item)
      (h : Enclosed '[' ']' items s) : IsValue s
  | object {members : List (List Char × List Char)} {s : List Char}
      (hkeys : ∀ m ∈ members, Key IsQuoted m.1) (hvalues : ∀ m ∈ members, IsValue m.2)
      (h : Enclosed '\x7b' '\x7d' (members.map fun m => m.1 ++ m.2) s) : IsValue s

/-! ## Values with a meaning -/

/-- A string or nothing. -/
inductive QuotesOrNull : Option String → List Char → Prop
  | null : QuotesOrNull none ['n', 'u', 'l', 'l']
  | text {s : String} {written : List Char} (h : Quotes s written) : QuotesOrNull (some s) written

/-- A list of values that are each written as `Writes` has it. -/
def ListOf {α : Type} (Writes : α → List Char → Prop) (values : List α) (written : List Char) :
    Prop :=
  ∃ items, List.Forall₂ Writes values items ∧ Enclosed '[' ']' items written

/-- A field of a record in the object that stands for the record. -/
structure Slot (σ : Type) where
  /-- The name of its member. -/
  name : String
  {α : Type}
  get : σ → α
  /-- The ways to write a value. -/
  Writes : α → List Char → Prop
  /-- The value of a field without a member. -/
  default : α

/-- A member of an object. -/
structure Member where
  name : String
  /-- The name and the colon as they are written. -/
  key : List Char
  /-- The value as it is written. -/
  value : List Char

/-- A member as it is written. -/
def Member.written (m : Member) : List Char := m.key ++ m.value

/-- Whether a name is one of those of the fields. -/
def Known {σ : Type} (slots : List (Slot σ)) (name : String) : Prop :=
  ∃ slot ∈ slots, slot.name = name

/-- Members that fit a record `v`: behind a known name stands the value that `v` has
there, and no known name stands twice. What is not known may hold anything. -/
inductive Fit {σ : Type} (slots : List (Slot σ)) (v : σ) : List Member → Prop
  | nil : Fit slots v []
  | known {slot : Slot σ} {key value : List Char} {members : List Member} (hslot : slot ∈ slots)
      (hkey : Key (Quotes slot.name) key) (hvalue : slot.Writes (slot.get v) value)
      (hnew : slot.name ∉ members.map Member.name) (hmore : Fit slots v members) :
      Fit slots v (⟨slot.name, key, value⟩ :: members)
  | unknown {name : String} {key value : List Char} {members : List Member}
      (hname : ¬ Known slots name) (hkey : Key (Quotes name) key) (hvalue : IsValue value)
      (hmore : Fit slots v members) : Fit slots v (⟨name, key, value⟩ :: members)

/-- The ways to write a record as an object. A field may be left out if it has the value
that it has by itself. -/
def ObjectOf {σ : Type} (slots : List (Slot σ)) (v : σ) (written : List Char) : Prop :=
  ∃ members, Fit slots v members ∧
    (∀ slot ∈ slots, slot.name ∉ members.map Member.name → slot.get v = slot.default) ∧
    Enclosed '\x7b' '\x7d' (members.map Member.written) written

/-! ## Everything can be written -/

theorem blanks_nil : Blanks [] := by simp [Blanks]

theorem exists_hexDigit {n : Nat} (h : n < 16) : ∃ d, (d, n) ∈ hexDigits := by
  have hall : ∀ n < 16, n ∈ hexDigits.map Prod.snd := by decide
  obtain ⟨⟨d, m⟩, hmem, rfl⟩ := List.mem_map.mp (hall n h)
  exact ⟨d, hmem⟩

theorem exists_hexUnit {n : Nat} (h : n < 0x10000) : ∃ digits, HexUnit digits n := by
  obtain ⟨a, ha⟩ := exists_hexDigit (n := n / 0x1000) (by omega)
  obtain ⟨b, hb⟩ := exists_hexDigit (n := n / 0x100 % 16) (by omega)
  obtain ⟨c, hc⟩ := exists_hexDigit (n := n / 16 % 16) (by omega)
  obtain ⟨d, hd⟩ := exists_hexDigit (n := n % 16) (by omega)
  have hsum : ((n / 0x1000 * 16 + n / 0x100 % 16) * 16 + n / 16 % 16) * 16 + n % 16 = n := by omega
  exact ⟨[a, b, c, d], hsum ▸ .digits ha hb hc hd⟩

/-- Characters that do not stand for themselves have an escape. -/
theorem exists_letter (c : Char) : ∃ written, Letter written c := by
  by_cases hself : StandsForItself c
  · exact ⟨_, .plain hself⟩
  by_cases hshort : c = '"' ∨ c = '\\'
  · rcases hshort with rfl | rfl
    · exact ⟨_, .short (e := '"') (by decide)⟩
    · exact ⟨_, .short (e := '\\') (by decide)⟩
  · have hcontrol : c.toNat < ' '.toNat := by
      rw [not_or] at hshort
      by_contra hspace
      exact hself ⟨Nat.le_of_not_lt hspace, hshort⟩
    obtain ⟨digits, hdigits⟩ := exists_hexUnit (Nat.lt_trans hcontrol (by decide))
    exact ⟨_, .unit hdigits⟩

theorem exists_quotes (s : String) : ∃ written, Quotes s written := by
  have hspells : ∀ cs : List Char, ∃ letters, Spells letters cs := by
    intro cs
    induction cs with
    | nil => exact ⟨[], .nil⟩
    | cons c cs ih =>
      obtain ⟨more, hmore⟩ := ih
      obtain ⟨written, hwritten⟩ := exists_letter c
      exact ⟨_, .cons hwritten hmore⟩
  obtain ⟨letters, hletters⟩ := hspells s.toList
  exact ⟨_, letters, hletters, rfl⟩

theorem exists_quotesOrNull : ∀ s : Option String, ∃ written, QuotesOrNull s written
  | none => ⟨_, .null⟩
  | some s =>
    have ⟨_, h⟩ := exists_quotes s
    ⟨_, .text h⟩

theorem exists_enclosed (opening closing : Char) (items : List (List Char)) :
    ∃ written, Enclosed opening closing items written := by
  have hlisted : ∀ first, ∃ inner, Listed first items inner := by
    induction items with
    | nil => exact fun _ => ⟨[], .nil blanks_nil⟩
    | cons item items ih =>
      obtain ⟨more, hmore⟩ := ih false
      rintro (_ | _)
      · exact ⟨_, .cons (.next blanks_nil blanks_nil) hmore⟩
      · exact ⟨_, .cons (.first blanks_nil) hmore⟩
  obtain ⟨inner, hinner⟩ := hlisted true
  exact ⟨_, inner, hinner, rfl⟩

theorem exists_listOf {α : Type} {Writes : α → List Char → Prop}
    (h : ∀ a, ∃ written, Writes a written) (values : List α) :
    ∃ written, ListOf Writes values written := by
  choose write hwrite using h
  obtain ⟨written, hwritten⟩ := exists_enclosed '[' ']' (values.map write)
  refine ⟨written, values.map write, ?_, hwritten⟩
  rw [List.forall₂_map_right_iff]
  exact List.forall₂_same.mpr fun a _ => hwrite a

/-- A record can be written with all of its members, in order. -/
theorem exists_objectOf {σ : Type} (slots : List (Slot σ)) (hnodup : (slots.map Slot.name).Nodup)
    (h : ∀ slot ∈ slots, ∀ a, ∃ written, slot.Writes a written) (v : σ) :
    ∃ written, ObjectOf slots v written := by
  have hfit : ∀ part : List (Slot σ), part ⊆ slots → (part.map Slot.name).Nodup →
      ∃ members, Fit slots v members ∧ members.map Member.name = part.map Slot.name := by
    intro part hpart hnodup
    induction part with
    | nil => exact ⟨[], .nil, rfl⟩
    | cons slot part ih =>
      rw [List.map_cons, List.nodup_cons] at hnodup
      obtain ⟨hslot, hpart⟩ := List.cons_subset.mp hpart
      obtain ⟨members, hmembers, hnames⟩ := ih hpart hnodup.2
      obtain ⟨name, hname⟩ := exists_quotes slot.name
      obtain ⟨value, hvalue⟩ := h slot hslot (slot.get v)
      have hkey : Key (Quotes slot.name) (name ++ ([] ++ ':' :: [])) :=
        ⟨name, [], [], hname, blanks_nil, blanks_nil, rfl⟩
      refine ⟨_, .known hslot hkey hvalue (hnames ▸ hnodup.1) hmembers, ?_⟩
      rw [List.map_cons, List.map_cons, hnames]
  obtain ⟨members, hmembers, hnames⟩ := hfit slots (List.Subset.refl slots) hnodup
  obtain ⟨written, hwritten⟩ := exists_enclosed '\x7b' '\x7d' (members.map Member.written)
  refine ⟨written, members, hmembers, fun slot hslot homitted => absurd ?_ homitted, hwritten⟩
  exact hnames ▸ List.mem_map_of_mem hslot

end SongPreview.Json
