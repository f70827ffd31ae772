import SongPreview.Colour
import SongPreview.Text
import Mathlib.Data.List.DropRight
import Mathlib.Data.List.Infix

/-!
# What is stripped of a line

Before a line of the renderer is read, its colour codes are deleted and the blanks at its ends
are trimmed. A text comes out as it was if codes are put between its characters, provided that
it holds no complete code itself. A code never reaches beyond a character that cannot go on
with one, so the text before and the text after such a character are stripped apart.
-/

namespace SongPreview

namespace Colour

variable {s after code plain raw before : List Char} {c x : Char}

/-- A complete colour code. -/
def IsCode (code : List Char) : Prop :=
  ∃ parameters : List Char, (∀ c ∈ parameters, isParameter c = true) ∧
    code = '\x1b' :: '[' :: (parameters ++ ['m'])

/-- No complete code stands in a text. -/
def Plain (s : List Char) : Prop :=
  ∀ code, IsCode code → ¬code <:+: s

/-- A text, and the same with complete codes put between its characters. -/
inductive Coloured : (plain raw : List Char) → Prop
  | nil : Coloured [] []
  | char {plain raw : List Char} (c : Char) (rest : Coloured plain raw) :
      Coloured (c :: plain) (c :: raw)
  | code {plain raw code : List Char} (complete : IsCode code) (rest : Coloured plain raw) :
      Coloured plain (code ++ raw)

/-- A code can go on with a character once it has begun. -/
def continues (c : Char) : Bool :=
  c == '[' || isParameter c || c == 'm'

/-! ### Codes -/

theorem IsCode.ne_nil (h : IsCode code) : code ≠ [] := by
  obtain ⟨parameters, -, rfl⟩ := h
  exact List.cons_ne_nil _ _

/-- A code is an escape character and characters that a code can go on with. -/
theorem IsCode.continues_of_mem {rest : List Char} (h : IsCode (c :: rest)) :
    c = '\x1b' ∧ ∀ x ∈ rest, continues x = true := by
  obtain ⟨parameters, hparameters, heq⟩ := h
  obtain ⟨rfl, rfl⟩ := List.cons_eq_cons.mp heq
  refine ⟨rfl, fun x hx => ?_⟩
  simp only [List.mem_cons, List.mem_append, List.not_mem_nil, or_false] at hx
  rcases hx with rfl | hmem | rfl
  · rfl
  · simp [continues, hparameters x hmem]
  · rfl

/-- There is text after a code exactly where a code stands in front. -/
theorem afterCode?_eq_some_iff :
    afterCode? s = some after ↔ ∃ code, IsCode code ∧ s = code ++ after := by
  constructor
  · intro h
    unfold afterCode? at h
    split at h
    · next rest =>
      split at h
      · next found heq =>
        obtain rfl := Option.some.inj h
        refine ⟨_, ⟨rest.takeWhile isParameter, fun c hc => List.mem_takeWhile_imp hc, rfl⟩, ?_⟩
        conv_lhs => rw [← List.takeWhile_append_dropWhile (p := isParameter) (l := rest), heq]
        simp
      · cases h
    · cases h
  · rintro ⟨code, ⟨parameters, hparameters, rfl⟩, rfl⟩
    have hrest : (parameters ++ 'm' :: after).dropWhile isParameter = 'm' :: after := by
      rw [List.dropWhile_append_of_pos hparameters]
      rfl
    simp [afterCode?, hrest]

/-! ### Stripping -/

theorem stripOnto_eq (out s : List Char) : stripOnto out s = out.reverse ++ strip s := by
  induction hn : s.length using Nat.strong_induction_on generalizing out s with
  | _ n ih =>
    subst hn
    cases s with
    | nil => simp [strip, stripOnto]
    | cons c rest =>
      rw [strip, stripOnto, stripOnto]
      split
      · next after hfound =>
        have hlt := length_afterCode?_lt hfound
        rw [ih _ hlt out after rfl, ih _ hlt [] after rfl]
        rfl
      · have hlt : rest.length < (c :: rest).length := by simp
        rw [ih _ hlt (c :: out) rest rfl, ih _ hlt [c] rest rfl]
        simp

@[simp] theorem strip_nil : strip [] = [] := by
  rw [strip, stripOnto]
  rfl

/-- A code in front is deleted. -/
theorem strip_code_append (h : IsCode code) (after : List Char) :
    strip (code ++ after) = strip after := by
  obtain ⟨c, rest, rfl⟩ := List.exists_cons_of_ne_nil h.ne_nil
  have hfound : afterCode? (c :: (rest ++ after)) = some after :=
    afterCode?_eq_some_iff.mpr ⟨_, h, rfl⟩
  rw [List.cons_append, strip, stripOnto]
  split
  · next found heq =>
    rw [hfound] at heq
    rw [stripOnto_eq, Option.some.inj heq]
    rfl
  · next hnone =>
    rw [hfound] at hnone
    cases hnone

/-- A character that begins no code is kept. -/
theorem strip_cons (h : afterCode? (c :: s) = none) : strip (c :: s) = c :: strip s := by
  rw [strip, stripOnto]
  split
  · next hfound =>
    rw [h] at hfound
    cases hfound
  · rw [stripOnto_eq]
    rfl

/-- Every text has a code in front, or a character that begins none. -/
theorem code_or_char (s : List Char) :
    s = [] ∨ (∃ code after, IsCode code ∧ s = code ++ after) ∨
      ∃ c rest, s = c :: rest ∧ afterCode? (c :: rest) = none := by
  cases s with
  | nil => exact .inl rfl
  | cons c rest =>
    cases hfound : afterCode? (c :: rest) with
    | none => exact .inr (.inr ⟨c, rest, rfl, hfound⟩)
    | some after =>
      obtain ⟨code, hcode, heq⟩ := afterCode?_eq_some_iff.mp hfound
      exact .inr (.inl ⟨code, after, hcode, heq⟩)

/-- Nothing is deleted but complete codes. -/
theorem coloured_strip (raw : List Char) : Coloured (strip raw) raw := by
  induction hn : raw.length using Nat.strong_induction_on generalizing raw with
  | _ n ih =>
    subst hn
    rcases code_or_char raw with rfl | ⟨code, after, hcode, rfl⟩ | ⟨c, rest, rfl, hnone⟩
    · rw [strip_nil]
      exact .nil
    · rw [strip_code_append hcode]
      have hpos := List.length_pos_iff.mpr hcode.ne_nil
      exact .code hcode (ih _ (by rw [List.length_append]; omega) after rfl)
    · rw [strip_cons hnone]
      exact .char c (ih _ (by simp) rest rfl)

/-- What stands before the first escape character has no codes in it. -/
theorem Coloured.prefix_of_not_mem {word rest : List Char} (h : Coloured plain (word ++ rest))
    (hword : '\x1b' ∉ word) : ∃ plain', plain = word ++ plain' ∧ Coloured plain' rest := by
  induction word generalizing plain with
  | nil => exact ⟨plain, rfl, h⟩
  | cons c word ih =>
    obtain ⟨hc, hrest⟩ := List.ne_and_not_mem_of_not_mem_cons hword
    generalize hraw : c :: word ++ rest = raw at h
    cases h with
    | nil => cases hraw
    | char c' h =>
      obtain ⟨rfl, rfl⟩ := List.cons_eq_cons.mp hraw
      obtain ⟨plain', rfl, h'⟩ := ih h hrest
      exact ⟨plain', rfl, h'⟩
    | code complete h =>
      obtain ⟨parameters, -, rfl⟩ := complete
      exact absurd (List.cons_eq_cons.mp hraw).1.symm hc

/-- In a text without codes no character begins one, also with other codes put in between. -/
theorem Coloured.afterCode?_eq_none (h : Coloured plain raw) (hplain : Plain (c :: plain)) :
    afterCode? (c :: raw) = none := by
  rw [Option.eq_none_iff_forall_ne_some]
  intro after hfound
  obtain ⟨code, hcode, heq⟩ := afterCode?_eq_some_iff.mp hfound
  have hcode' := hcode
  obtain ⟨parameters, hparameters, rfl⟩ := hcode
  obtain ⟨rfl, rfl⟩ := List.cons_eq_cons.mp heq
  have hescape : '\x1b' ∉ '[' :: (parameters ++ ['m']) := by
    intro hmem
    exact absurd (hcode'.continues_of_mem.2 _ hmem) (by decide)
  obtain ⟨plain', rfl, -⟩ := Coloured.prefix_of_not_mem h hescape
  exact hplain _ hcode' (List.prefix_append _ plain').isInfix

theorem Plain.tail (h : Plain (c :: s)) : Plain s :=
  fun code hcode hinside => h code hcode (List.infix_cons hinside)

/-- Codes that are put between the characters of a text without codes are deleted, and nothing
else is. -/
theorem strip_of_coloured (h : Coloured plain raw) (hplain : Plain plain) : strip raw = plain := by
  induction h with
  | nil => exact strip_nil
  | char c rest ih => rw [strip_cons (rest.afterCode?_eq_none hplain), ih hplain.tail]
  | code complete rest ih => rw [strip_code_append complete, ih hplain]

/-- A character that no code goes on with parts a text: both parts are stripped alone. -/
theorem strip_append_cons (hx : continues x = false) (before after : List Char) :
    strip (before ++ x :: after) = strip before ++ strip (x :: after) := by
  induction hn : before.length using Nat.strong_induction_on generalizing before with
  | _ n ih =>
    subst hn
    rcases code_or_char before with rfl | ⟨code, rest, hcode, rfl⟩ | ⟨c, rest, rfl, hnone⟩
    · simp
    · have hpos := List.length_pos_iff.mpr hcode.ne_nil
      rw [List.append_assoc, strip_code_append hcode, strip_code_append hcode,
        ih _ (by rw [List.length_append]; omega) rest rfl]
    · have hnone' : afterCode? (c :: (rest ++ x :: after)) = none := by
        rw [Option.eq_none_iff_forall_ne_some] at hnone ⊢
        intro found hfound
        obtain ⟨code, hcode, heq⟩ := afterCode?_eq_some_iff.mp hfound
        rw [← List.cons_append] at heq
        rcases List.append_eq_append_iff.mp heq with ⟨bs, rfl, hbs⟩ | ⟨as, has, -⟩
        · -- the code would reach the parting character, or end just before it
          cases bs with
          | nil =>
            rw [List.append_nil] at hcode
            exact hnone [] (afterCode?_eq_some_iff.mpr ⟨_, hcode, by simp⟩)
          | cons b bs =>
            obtain ⟨rfl, -⟩ := List.cons_eq_cons.mp hbs
            have := (IsCode.continues_of_mem hcode).2 x (by simp)
            rw [hx] at this
            cases this
        · exact hnone as (afterCode?_eq_some_iff.mpr ⟨code, hcode, has⟩)
      rw [List.cons_append, strip_cons hnone', strip_cons hnone, ih _ (by simp) rest rfl,
        List.cons_append]

/-- A code between two texts is deleted, and the texts are stripped alone: the escape character
that it begins with parts them. -/
theorem strip_append_code (h : IsCode code) (before after : List Char) :
    strip (before ++ code ++ after) = strip before ++ strip after := by
  obtain ⟨c, rest, rfl⟩ := List.exists_cons_of_ne_nil h.ne_nil
  obtain ⟨rfl, -⟩ := h.continues_of_mem
  rw [List.append_assoc, List.cons_append, strip_append_cons (by decide), ← List.cons_append,
    strip_code_append h]

/-! ### Texts without codes -/

theorem Coloured.refl (s : List Char) : Coloured s s := by
  induction s with
  | nil => exact .nil
  | cons c s ih => exact .char c ih

theorem Coloured.length_le (h : Coloured plain raw) : plain.length ≤ raw.length := by
  induction h with
  | nil => exact Nat.le_refl _
  | char c rest ih => exact Nat.succ_le_succ ih
  | code complete rest ih =>
    rw [List.length_append]
    omega

/-- The texts that stripping leaves as they are. -/
theorem plain_iff_strip_eq : Plain s ↔ strip s = s := by
  constructor
  · exact strip_of_coloured (.refl s)
  · rintro hstrip code hcode ⟨before, after, rfl⟩
    have hlength := congrArg List.length ((strip_append_code hcode before after).symm.trans hstrip)
    have hbefore := (coloured_strip before).length_le
    have hafter := (coloured_strip after).length_le
    have hpos := List.length_pos_iff.mpr hcode.ne_nil
    simp only [List.length_append] at hlength
    omega

instance decidablePlain (s : List Char) : Decidable (Plain s) :=
  decidable_of_iff (strip s = s) plain_iff_strip_eq.symm

theorem plain_of_not_mem (h : '\x1b' ∉ s) : Plain s := by
  rintro code ⟨parameters, -, rfl⟩ hinside
  exact h (hinside.subset List.mem_cons_self)

theorem Plain.cons (hc : c ≠ '\x1b') (h : Plain s) : Plain (c :: s) := by
  rintro code hcode hinside
  rcases List.infix_cons_iff.mp hinside with hprefix | hrest
  · obtain ⟨parameters, -, rfl⟩ := hcode
    obtain ⟨rest, heq⟩ := hprefix
    exact hc (List.cons_eq_cons.mp heq).1.symm
  · exact h code hcode hrest

theorem Plain.append_left (hbefore : '\x1b' ∉ before) (h : Plain s) : Plain (before ++ s) := by
  induction before with
  | nil => exact h
  | cons c before ih =>
    obtain ⟨hc, hrest⟩ := List.ne_and_not_mem_of_not_mem_cons hbefore
    exact (ih hrest).cons (Ne.symm hc)

/-- Texts without codes are joined by a character that no code goes on with. -/
theorem Plain.append_cons (hbefore : Plain before) (hx : continues x = false) (h : Plain (x :: s)) :
    Plain (before ++ x :: s) := by
  intro code hcode hinside
  rcases List.infix_append_iff_ne_nil.mp hinside with
    hleft | hright | ⟨l₁, l₂, h₁, h₂, rfl, -, hprefix⟩
  · exact hbefore code hcode hleft
  · exact h code hcode hright
  · obtain ⟨y, l₂, rfl⟩ := List.exists_cons_of_ne_nil h₂
    obtain ⟨c, l₁, rfl⟩ := List.exists_cons_of_ne_nil h₁
    obtain ⟨rest, heq⟩ := hprefix
    obtain ⟨rfl, -⟩ := List.cons_eq_cons.mp heq
    have := (IsCode.continues_of_mem hcode).2 y (by simp)
    rw [hx] at this
    cases this

end Colour

namespace Text

variable {s lead trail before after : List Char} {c x : Char}

/-- No blank stands in front of a text. -/
def BareStart (s : List Char) : Prop :=
  ∀ c ∈ s.head?, isBlank c = false

/-- No blank stands at either end of a text. -/
def Bare (s : List Char) : Prop :=
  BareStart s ∧ ∀ c ∈ s.getLast?, isBlank c = false

instance (s : List Char) : Decidable (BareStart s) :=
  Option.decidableForallMem s.head?

instance (s : List Char) : Decidable (Bare s) :=
  have : Decidable (∀ c ∈ s.getLast?, isBlank c = false) := Option.decidableForallMem s.getLast?
  inferInstanceAs (Decidable (_ ∧ _))

theorem trimLeft_append (h : ∀ c ∈ lead, isBlank c = true) (s : List Char) :
    trimLeft (lead ++ s) = trimLeft s :=
  List.dropWhile_append_of_pos h

theorem BareStart.trimLeft_eq (h : BareStart s) : trimLeft s = s := by
  cases s with
  | nil => rfl
  | cons c rest => exact List.dropWhile_cons_of_neg (by simpa [BareStart] using h)

theorem trimRight_eq (s : List Char) : trimRight s = s.rdropWhile isBlank :=
  rfl

theorem trimRight_eq_nil (h : ∀ c ∈ s, isBlank c = true) : trimRight s = [] :=
  List.rdropWhile_eq_nil_iff.mpr h

theorem trimRight_prefix (s : List Char) : trimRight s <+: s :=
  List.rdropWhile_prefix isBlank s

theorem trimRight_trimRight (s : List Char) : trimRight (trimRight s) = trimRight s :=
  List.rdropWhile_idempotent isBlank s

/-- Trimming the end of a text does not reach beyond a character that is not blank. -/
theorem trimRight_append_cons (hx : isBlank x = false) (before after : List Char) :
    trimRight (before ++ x :: after) = before ++ x :: trimRight after := by
  induction after using List.reverseRecOn with
  | nil => exact List.rdropWhile_concat_neg isBlank before x (by simp [hx])
  | append_singleton after y ih =>
    rw [← List.cons_append, ← List.append_assoc]
    simp only [trimRight_eq, List.rdropWhile_concat] at ih ⊢
    split
    · exact ih
    · simp

theorem trimRight_append (h : ∀ c ∈ trail, isBlank c = true) (s : List Char) :
    trimRight (s ++ trail) = trimRight s := by
  induction trail using List.reverseRecOn with
  | nil => rw [List.append_nil]
  | append_singleton trail y ih =>
    rw [← List.append_assoc, trimRight_eq, List.rdropWhile_concat_pos isBlank _ y (h y (by simp))]
    exact ih fun c hc => h c (List.mem_append_left _ hc)

theorem Bare.trim_eq (h : Bare s) : trim s = s := by
  rw [trim, h.1.trimLeft_eq, trimRight_eq, List.rdropWhile_eq_self_iff]
  intro hne
  rw [h.2 _ (List.getLast?_eq_some_getLast hne)]
  exact Bool.false_ne_true

/-- The ends of a text can be trimmed in either order. -/
theorem trimLeft_trimRight (s : List Char) : trimLeft (trimRight s) = trim s := by
  induction s with
  | nil => rfl
  | cons c s ih =>
    cases hc : isBlank c with
    | false =>
      have hleft (rest : List Char) : trimLeft (c :: rest) = c :: rest :=
        List.dropWhile_cons_of_neg (by simp [hc])
      rw [trim, hleft s, show trimRight (c :: s) = c :: trimRight s from
        trimRight_append_cons hc [] s, hleft]
    | true =>
      have hleft (rest : List Char) : trimLeft (c :: rest) = trimLeft rest :=
        List.dropWhile_cons_of_pos hc
      by_cases hall : ∀ x ∈ s, isBlank x = true
      · rw [trimRight_eq_nil (List.forall_mem_cons.mpr ⟨hc, hall⟩), trim, hleft, ← trim, ← ih,
          trimRight_eq_nil hall]
      · have hright : trimRight (c :: s) = c :: trimRight s := by
          obtain ⟨before, x, after, rfl, hx⟩ : ∃ before x after, s = before ++ x :: after ∧
              isBlank x = false := by
            push Not at hall
            obtain ⟨x, hmem, hx⟩ := hall
            obtain ⟨before, after, rfl⟩ := List.append_of_mem hmem
            exact ⟨before, x, after, rfl, by simpa using hx⟩
          rw [← List.cons_append, trimRight_append_cons hx, trimRight_append_cons hx,
            List.cons_append]
        rw [hright, hleft, ih, trim, trim, hleft]

/-- What stands behind a beginning. -/
theorem behind?_eq_some_iff {beginning rest : List Char} :
    behind? beginning s = some rest ↔ s = beginning ++ rest := by
  induction beginning generalizing s with
  | nil => simp [behind?]
  | cons b beginning ih =>
    cases s with
    | nil => simp [behind?]
    | cons c s =>
      by_cases hc : b = c
      · simp [behind?, hc, ih]
      · simp [behind?, hc, Ne.symm hc]

/-- A word occurs in a text if and only if it is a piece of it. -/
theorem occursIn_iff {word : List Char} : occursIn word s = true ↔ word <:+: s := by
  induction s with
  | nil => simp [occursIn]
  | cons c s ih => simp [occursIn, ih, List.infix_cons_iff]

end Text

end SongPreview
