import SongPreview.Json.Number
import SongPreview.Json.Text
import SongPreview.Proofs.Json.Grammar

/-!
# The readers of tokens

The readers of blanks, words, strings and numbers read every token of the grammar, and
leave what stands behind it.
-/

namespace SongPreview.Json

namespace Reader

variable {α β : Type} {s s' b rest : List Char} {c : Char} {fault : Fault}

/-- A reader goes on where another one has stopped. -/
theorem bind_of_ok {reader : Reader α} {a : α} (h : reader s = .ok (a, s')) (f : α → Reader β) :
    (reader >>= f) s = f a s' := by
  simp only [bind, StateT.bind, h, Except.bind]

theorem advance_cons (c : Char) (s : List Char) : advance (c :: s) = .ok ((), s) := rfl

theorem peek?_apply (s : List Char) : peek? s = .ok (s.head?, s) := rfl

theorem peek?_cons (c : Char) (s : List Char) : peek? (c :: s) = .ok (some c, c :: s) := rfl

/-! ## Blanks -/

theorem isBlank_iff : isBlank c = true ↔ c ∈ [' ', '\t', '\n', '\r'] := by
  simp only [isBlank, decide_eq_true_eq, List.mem_cons, List.not_mem_nil, or_false]
  tauto

/-- A reader that goes over blanks first. -/
def Skips (reader : Reader α) : Prop := ∀ b s : List Char, Blanks b → reader (b ++ s) = reader s

theorem skips_next? : Skips next? := by
  intro b s hb
  have hdrop : (b ++ s).dropWhile isBlank = s.dropWhile isBlank :=
    List.dropWhile_append_of_pos fun c hc => isBlank_iff.mpr (hb c hc)
  simp only [next?, hdrop]

theorem Skips.bind {reader : Reader α} (h : Skips reader) (f : α → Reader β) :
    Skips (reader >>= f) := by
  intro b s hb
  simp only [Bind.bind, StateT.bind, h b s hb]

theorem skips_next (fault : Fault) : Skips (next fault) := skips_next?.bind _

theorem next?_cons (hc : isBlank c = false) (s : List Char) :
    next? (c :: s) = .ok (some c, c :: s) := by
  simp only [next?, List.dropWhile_cons, hc, Bool.false_eq_true, if_false, List.head?_cons]

theorem next_cons (hc : isBlank c = false) (s : List Char) :
    next fault (c :: s) = .ok (c, c :: s) := by
  rw [next, bind_of_ok (next?_cons hc s)]
  rfl

/-- Behind blanks stands the next character. -/
theorem next_blanks (hb : Blanks b) (hc : isBlank c = false) (s : List Char) :
    next fault (b ++ c :: s) = .ok (c, c :: s) := by
  rw [skips_next fault b _ hb, next_cons hc]

theorem colon_blanks (hb : Blanks b) (s : List Char) : colon (b ++ ':' :: s) = .ok ((), s) := by
  rw [colon, bind_of_ok (next_blanks hb (by decide) s)]
  rfl

/-- A text without anything but blanks is read to its end. -/
theorem finish_blanks (hb : Blanks b) : finish b = .ok ((), []) := by
  have hnext : next? b = .ok (none, []) := by
    rw [← List.append_nil b, skips_next? b [] hb]
    rfl
  rw [finish, bind_of_ok hnext]
  rfl

/-- A word is read letter by letter. -/
theorem word_append (cs rest : List Char) : word cs (cs ++ rest) = .ok ((), rest) := by
  induction cs with
  | nil => rfl
  | cons c cs ih =>
    rw [word, List.cons_append, bind_of_ok (peek?_cons c _)]
    simp only [bind_of_ok (advance_cons c _), if_true, ih]

end Reader

/-! ## Strings -/

theorem hexDigit?_of_mem : ∀ p ∈ hexDigits, hexDigit? p.1 = some p.2 := by decide

theorem plainEscape?_of_mem : ∀ p ∈ shortEscapes, plainEscape? p.1 = some p.2 ∧ p.1 ≠ 'u' := by
  decide

theorem HexUnit.read {digits : List Char} {n : Nat} (h : HexUnit digits n) (rest : List Char) :
    hexUnit (digits ++ rest) = .ok (n, rest) := by
  cases h with
  | digits ha hb hc hd =>
    simp only [List.cons_append, List.nil_append, hexUnit, hexDigit?_of_mem _ ha,
      hexDigit?_of_mem _ hb, hexDigit?_of_mem _ hc, hexDigit?_of_mem _ hd]

/-- A character is no half of a surrogate pair. -/
theorem toNat_apart (c : Char) : c.toNat < 0xD800 ∨ 0xDFFF < c.toNat := by
  have := c.valid
  simp only [UInt32.isValidChar, Nat.isValidChar] at this
  simp only [Char.toNat]
  omega

/-- The reader of escapes reads one unit of its own and pairs of units. -/
theorem unicode_unit {digits : List Char} {c : Char} (h : HexUnit digits c.toNat)
    (rest : List Char) : unicode (digits ++ rest) = .ok (c, rest) := by
  have hc := toNat_apart c
  simp only [unicode, h.read rest]
  rw [if_neg (by omega), if_pos (by omega), Char.ofNat_toNat]

theorem unicode_pair {high low : List Char} {m n : Nat} {c : Char} (hhigh : HexUnit high m)
    (hlow : HexUnit low n) (hm : 0xD800 ≤ m ∧ m ≤ 0xDBFF) (hn : 0xDC00 ≤ n ∧ n ≤ 0xDFFF)
    (hc : c.toNat = 0x10000 + (m - 0xD800) * 0x400 + (n - 0xDC00)) (rest : List Char) :
    unicode (high ++ '\\' :: 'u' :: (low ++ rest)) = .ok (c, rest) := by
  have hsum : (m - 0xD800) * 1024 + (n - 0xDC00) + 0x10000 = c.toNat := by omega
  simp only [unicode, hhigh.read, lowUnit, hlow.read]
  rw [if_neg (by omega), if_neg (by omega), if_neg (by omega), hsum, Char.ofNat_toNat]

theorem charactersOnto_escape {out rest after : List Char} {c : Char}
    (h : escape rest = .ok (c, after)) :
    charactersOnto out ('\\' :: rest) = charactersOnto (c :: out) after := by
  rw [charactersOnto]
  split
  · simp_all
  · simp_all

/-- A character of a string is read, however it is written. -/
theorem Letter.read {written : List Char} {c : Char} (h : Letter written c)
    (out rest : List Char) :
    charactersOnto out (written ++ rest) = charactersOnto (c :: out) rest := by
  cases h with
  | plain h =>
    obtain ⟨hspace, hquote, hslash⟩ := h
    rw [List.singleton_append, charactersOnto.eq_4 _ _ _ hquote hslash,
      if_neg (Char.not_lt.mpr hspace)]
  | short h =>
    obtain ⟨hvalue, hu⟩ := plainEscape?_of_mem _ h
    refine charactersOnto_escape ?_
    simp_all [escape]
  | unit h => exact charactersOnto_escape (unicode_unit h rest)
  | @pair high low m n c hhigh hlow hm hn hc =>
    refine charactersOnto_escape ?_
    change unicode ((high ++ '\\' :: 'u' :: low) ++ rest) = _
    rw [List.append_assoc]
    exact unicode_pair hhigh hlow hm hn hc rest

/-- The characters of a string are read up to the closing quote. -/
theorem Spells.read {written meant : List Char} (h : Spells written meant) (out rest : List Char) :
    charactersOnto out (written ++ '"' :: rest) =
      .ok (String.ofList (out.reverse ++ meant), rest) := by
  induction h generalizing out with
  | nil => simp [charactersOnto]
  | cons h _ ih => rw [List.append_assoc, h.read, ih, List.reverse_cons, List.append_assoc]; rfl

/-- A string is read behind its opening quote. -/
theorem Quotes.read {s : String} {written : List Char} (h : Quotes s written) :
    ∃ inner, written = '"' :: inner ∧
      ∀ rest, Reader.characters (inner ++ rest) = .ok (s, rest) := by
  obtain ⟨letters, hletters, rfl⟩ := h
  refine ⟨_, rfl, fun rest => ?_⟩
  rw [Reader.characters, List.append_assoc, List.singleton_append, hletters.read,
    List.reverse_nil, List.nil_append, String.ofList_toList]

/-- A character of a string is passed over. -/
theorem Glyph.pass {written : List Char} (h : Glyph written) (rest : List Char) :
    passCharacters (written ++ rest) = passCharacters rest := by
  cases h with
  | plain h =>
    obtain ⟨hspace, hquote, hslash⟩ := h
    rw [List.singleton_append, passCharacters.eq_6 _ _ hquote (by simp [hslash]) (by simp [hslash])
      (by simp [hslash]), if_neg (Char.not_lt.mpr hspace)]
  | short h =>
    obtain ⟨hvalue, hu⟩ := plainEscape?_of_mem _ h
    rw [List.cons_append, List.singleton_append, passCharacters.eq_4 _ _ hu, hvalue]
    rfl
  | unit h =>
    rw [List.cons_append, List.cons_append, passCharacters]
    split
    · next hstop =>
      rw [h.read] at hstop
      cases hstop
    · next hread =>
      rw [h.read] at hread
      cases hread
      rfl

/-- A string is passed over behind its opening quote. -/
theorem IsQuoted.pass {written : List Char} (h : IsQuoted written) :
    ∃ inner, written = '"' :: inner ∧ ∀ rest, passCharacters (inner ++ rest) = .ok ((), rest) := by
  obtain ⟨glyphs, hglyphs, rfl⟩ := h
  refine ⟨_, rfl, fun rest => ?_⟩
  induction glyphs with
  | nil => rw [List.flatten_nil, List.nil_append, List.singleton_append, passCharacters]
  | cons g glyphs ih =>
    rw [List.flatten_cons, List.append_assoc, List.append_assoc, (hglyphs g (by simp)).pass,
      ← List.append_assoc]
    exact ih fun g hg => hglyphs g (List.mem_cons_of_mem _ hg)

/-! ## Numbers -/

/-- No digit follows. -/
def NoDigit (s : List Char) : Prop := ∀ c ∈ s.head?, ¬ c.isDigit

/-- Nothing follows that could go on with a number. -/
def Apart (s : List Char) : Prop := ∀ c ∈ s.head?, ¬ c.isDigit ∧ c ∉ ['.', 'e', 'E']

theorem Apart.noDigit {s : List Char} (h : Apart s) : NoDigit s := fun c hc => (h c hc).1

/-- What stands behind a value inside of another one does not go on with it. -/
theorem apart_blanks {b : List Char} {d : Char} (hb : Blanks b) (hd : d ∈ [',', ']', '\x7d'])
    (s : List Char) : Apart (b ++ d :: s) := by
  have hother : ∀ c ∈ [' ', '\t', '\n', '\r'] ++ [',', ']', '\x7d'],
      c.isDigit = false ∧ c ∉ ['.', 'e', 'E'] := by simp
  intro c hc
  have hmem : c ∈ [' ', '\t', '\n', '\r'] ++ [',', ']', '\x7d'] := by
    cases b with
    | nil =>
      obtain rfl : d = c := by simpa using hc
      exact List.mem_append_right _ hd
    | cons c' b =>
      obtain rfl : c' = c := by simpa using hc
      exact List.mem_append_left _ (hb c' (by simp))
  simpa using hother c hmem

namespace Reader

variable {α : Type} {ds rest : List Char}

theorem digits_append (hds : ∀ c ∈ ds, c.isDigit) (hrest : NoDigit rest) :
    digits (ds ++ rest) = .ok (ds, rest) := by
  have hstop : rest.takeWhile Char.isDigit = [] ∧ rest.dropWhile Char.isDigit = rest := by
    cases rest with
    | nil => exact ⟨rfl, rfl⟩
    | cons c rest => simp [hrest c rfl]
  rw [digits, List.takeWhile_append_of_pos hds, List.dropWhile_append_of_pos hds, hstop.1, hstop.2,
    List.append_nil]

/-- The digits in front of a point are read. -/
theorem wholeDigits_append (h : IsWhole ds) (hrest : NoDigit rest) :
    wholeDigits (ds ++ rest) = .ok (ds, rest) := by
  obtain ⟨⟨hne, hds⟩, hzero⟩ := h
  obtain ⟨c, ds, rfl⟩ := List.exists_cons_of_ne_nil hne
  rw [wholeDigits, List.cons_append, bind_of_ok (peek?_cons c _)]
  by_cases hc : c = '0'
  · obtain rfl : ds = [] := by simpa [hc] using hzero
    subst hc
    cases rest with
    | nil => rfl
    | cons d rest =>
      have hd : d.isDigit = false := by simpa using hrest d rfl
      simp only [bind, StateT.bind, Except.bind, advance, peek?, List.nil_append,
        List.drop_one, List.tail_cons, List.head?_cons, hd]
      rfl
  · have hdigit : c.isDigit = true := hds c (by simp)
    simp only [hdigit, if_true]
    exact digits_append hds hrest

/-- The digits behind a point are read. -/
theorem fractionDigits_append (h : IsFraction ds) (hrest : NoDigit rest)
    (hpoint : '.' ∉ rest.head?) : ∃ found, fractionDigits (ds ++ rest) = .ok (found, rest) := by
  cases h with
  | none =>
    refine ⟨[], ?_⟩
    rw [fractionDigits, List.nil_append, bind_of_ok (peek?_apply rest),
      if_neg (by simpa using hpoint)]
    rfl
  | @some ds h =>
    refine ⟨ds, ?_⟩
    rw [fractionDigits, List.cons_append, bind_of_ok (peek?_cons '.' _), if_pos rfl,
      bind_of_ok (advance_cons '.' _), bind_of_ok (digits_append h.2 hrest), if_neg h.1]
    rfl

/-- A reader goes over the sign of an exponent. -/
theorem over_sign {sign s : List Char} (hsign : sign ∈ [[], ['+'], ['-']]) (hds : Digits ds)
    (reader : Reader α) (hs : s = sign ++ (ds ++ rest)) :
    (if s.head? = some '+' ∨ s.head? = some '-' then advance >>= fun _ => reader else reader) s =
      reader (ds ++ rest) := by
  obtain ⟨d, more, rfl⟩ := List.exists_cons_of_ne_nil hds.1
  have hd : d ≠ '+' ∧ d ≠ '-' := by
    have hdigit := hds.2 d (by simp)
    constructor <;> rintro rfl <;> simp at hdigit
  obtain rfl | rfl | rfl : sign = [] ∨ sign = ['+'] ∨ sign = ['-'] := by simpa using hsign
  · subst hs
    rw [List.nil_append, List.cons_append, List.head?_cons, if_neg (by simpa using hd)]
  all_goals
    subst hs
    exact bind_of_ok (advance_cons _ _) _

/-- An exponent is read. -/
theorem exponent?_append (h : IsExponent ds) (hrest : Apart rest) :
    ∃ found, exponent? (ds ++ rest) = .ok (found, rest) := by
  cases h with
  | none =>
    refine ⟨none, ?_⟩
    rw [exponent?, List.nil_append, bind_of_ok (peek?_apply rest)]
    generalize hnext : rest.head? = next
    split
    · exact absurd (hrest _ (by assumption)).2 (by decide)
    · exact absurd (hrest _ (by assumption)).2 (by decide)
    · rfl
  | @some e sign ds he hsign h =>
    obtain rfl | rfl : e = 'e' ∨ e = 'E' := by simpa using he
    all_goals
      simp only [exponent?, List.cons_append, bind_of_ok (peek?_cons _ _),
        bind_of_ok (advance_cons _ _), List.append_assoc, bind_of_ok (peek?_apply _)]
      rw [over_sign hsign h _ rfl, bind_of_ok (digits_append h.2 hrest.noDigit), if_neg h.1]
      exact ⟨_, rfl⟩

/-- What stands behind the digits in front of the point does not go on with them. -/
theorem apart_exponent (h : IsExponent ds) (hrest : Apart rest) :
    NoDigit (ds ++ rest) ∧ '.' ∉ (ds ++ rest).head? := by
  cases h with
  | none => exact ⟨hrest.noDigit, fun hpoint => (hrest _ hpoint).2 (by decide)⟩
  | some he _ _ =>
    simp only [List.mem_cons, List.not_mem_nil, or_false] at he
    rcases he with rfl | rfl <;> exact ⟨by simp [NoDigit], by simp⟩

/-- A number is read behind its sign. -/
theorem numeral_append {whole fraction exponent : List Char} (hwhole : IsWhole whole)
    (hfraction : IsFraction fraction) (hexponent : IsExponent exponent) (hrest : Apart rest)
    (negative : Bool) :
    ∃ n, numeral negative (whole ++ (fraction ++ (exponent ++ rest))) = .ok (n, rest) := by
  obtain ⟨hdigit, hpoint⟩ := apart_exponent hexponent hrest
  have hbehind : NoDigit (fraction ++ (exponent ++ rest)) := by
    cases hfraction with
    | none => exact hdigit
    | some _ => simp [NoDigit]
  obtain ⟨f, hf⟩ := fractionDigits_append hfraction hdigit hpoint
  obtain ⟨e, he⟩ := exponent?_append hexponent hrest
  rw [numeral, bind_of_ok (wholeDigits_append hwhole hbehind), bind_of_ok hf, bind_of_ok he]
  exact ⟨_, rfl⟩

end Reader

end SongPreview.Json
