import SongPreview.Proofs.Diagnostic.Grammar

/-!
# Reading a message again

The message of a line that does not name the source is the line itself, stripped of codes and
blanks. Reading it again should change nothing. It does change something where one code stands
inside another: stripping deletes the inner code, and what stood around it becomes a code. This
file says for which lines a second reading is the first one.
-/

namespace SongPreview

namespace Text

variable {s : List Char}

theorem isInfix_trim (s : List Char) : trim s <:+: s := by
  have hright : trim s <+: trimLeft s := trimRight_prefix _
  exact hright.isInfix.trans (List.dropWhile_suffix isBlank).isInfix

theorem trim_trim (s : List Char) : trim (trim s) = trim s := by
  have hleft : trimLeft (trimLeft s) = trimLeft s := List.dropWhile_idempotent isBlank s
  conv_lhs => rw [← trimLeft_trimRight, trim, trimRight_trimRight, trimLeft_trimRight, trim, hleft]
  rfl

/-- What trimming takes away is blank. -/
theorem exists_trim_eq (s : List Char) : ∃ lead trail, (∀ c ∈ lead, isBlank c = true) ∧
    (∀ c ∈ trail, isBlank c = true) ∧ s = lead ++ trim s ++ trail := by
  refine ⟨s.takeWhile isBlank, (trimLeft s).rtakeWhile isBlank,
    fun c hc => List.mem_takeWhile_imp hc, fun c hc => List.mem_rtakeWhile_imp hc, ?_⟩
  rw [List.append_assoc, trim, trimRight_eq, List.rdropWhile_append_rtakeWhile]
  exact List.takeWhile_append_dropWhile.symm

end Text

namespace Colour

variable {s t : List Char}

theorem Plain.of_infix (h : Plain s) (hinside : t <:+: s) : Plain t :=
  fun code hcode hcode' => h code hcode (hcode'.trans hinside)

/-- Blanks at the ends of a text are no part of a code. -/
theorem plain_trim_iff : Plain (Text.trim s) ↔ Plain s := by
  constructor
  · intro h
    obtain ⟨lead, trail, hlead, htrail, heq⟩ := Text.exists_trim_eq s
    rw [heq, List.append_assoc]
    exact .append_left (Diagnostic.escape_not_mem hlead) (Diagnostic.plain_append_blanks h htrail)
  · exact fun h => h.of_infix (Text.isInfix_trim s)

/-- Stripping leaves no code exactly in the texts that are made by putting codes between the
characters of a text without any. -/
theorem plain_strip_iff : Plain (strip s) ↔ ∃ plain, Plain plain ∧ Coloured plain s := by
  constructor
  · exact fun h => ⟨strip s, h, coloured_strip s⟩
  · rintro ⟨plain, hplain, hcoloured⟩
    rwa [strip_of_coloured hcoloured hplain]

/-- Stripping shortens every text but those without codes. -/
theorem plain_of_length_le (h : s.length ≤ (strip s).length) : Plain s := by
  have heq {plain raw : List Char} (hcoloured : Coloured plain raw)
      (hle : raw.length ≤ plain.length) : plain = raw := by
    induction hcoloured with
    | nil => rfl
    | char c _ ih => rw [ih (Nat.le_of_succ_le_succ hle)]
    | code complete rest _ =>
      have hpos := List.length_pos_iff.mpr complete.ne_nil
      have hrest := rest.length_le
      rw [List.length_append] at hle
      omega
  exact plain_iff_strip_eq.mpr (heq (coloured_strip s) h)

end Colour

namespace Diagnostic

variable {name raw : String} {time : Int} {rest : List Char}

/-- A line names the source in front. An empty source is never named. -/
def Names (source line : List Char) : Prop :=
  source ≠ [] ∧ ∃ front ∈ fronts source, front <+: line

instance (source line : List Char) : Decidable (Names source line) :=
  inferInstanceAs (Decidable (_ ∧ _))

/-- The text that is left of a raw line when its codes and outer blanks are gone. -/
def bareLine (raw : String) : List Char :=
  Text.trim (Colour.strip raw.toList)

/-- A line that does not name the source is a notice as a whole. -/
theorem ofLine_of_not_names (h : ¬Names name.toList (bareLine raw)) :
    ofLine name raw time = ⟨.notice, String.ofList (bareLine raw), none, time⟩ := by
  have hnone : afterSource? name.toList (Text.trimRight (Colour.strip raw.toList)) = none := by
    rw [afterSource?_eq_none_iff, Text.trimLeft_trimRight, ← bareLine]
    by_cases hempty : name.toList = []
    · exact .inl hempty
    · exact .inr fun front hfront hbegins => h ⟨hempty, front, hfront, hbegins⟩
  simp only [ofLine, hnone, unattributed, Text.trimLeft_trimRight, bareLine]

theorem isInfix_splitNumber (rest : List Char) : (splitNumber rest).2 <:+: rest := by
  rw [splitNumber]
  split
  · next message hcolon =>
    split
    · have hmessage : message <:+: rest := by
        have hbody := (List.dropWhile_suffix Char.isDigit).trans
          (List.dropWhile_suffix (l := rest) fun c => c == ' ' || c == '\t')
        rw [hcolon] at hbody
        exact ((List.suffix_cons _ _).trans hbody).isInfix
      exact (Text.isInfix_trim message).trans hmessage
    · exact Text.isInfix_trim rest
  · exact Text.isInfix_trim rest

/-- A message is a piece of its line. -/
theorem isInfix_message (name raw : String) (time : Int) :
    (ofLine name raw time).message.toList <:+: bareLine raw := by
  by_cases h : Names name.toList (bareLine raw)
  · rw [ofLine]
    dsimp only
    split
    · rw [unattributed, String.toList_ofList, Text.trimLeft_trimRight]
      exact List.infix_rfl
    · next rest hsome =>
      obtain ⟨-, front, -, heq⟩ := afterSource?_eq_some_iff.mp hsome
      rw [Text.trimLeft_trimRight] at heq
      rw [String.toList_ofList, bareLine, heq]
      exact (isInfix_splitNumber rest).trans (List.suffix_append front rest).isInfix
  · rw [ofLine_of_not_names h, String.toList_ofList]

/-- A message without codes is its own bare line. -/
theorem bareLine_message_of_plain (h : ¬Names name.toList (bareLine raw))
    (hplain : Colour.Plain (bareLine raw)) :
    bareLine (ofLine name raw time).message = bareLine raw := by
  rw [ofLine_of_not_names h, bareLine, String.toList_ofList, Colour.plain_iff_strip_eq.mp hplain,
    bareLine, Text.trim_trim]

/-- **When a second reading is the first one.** For every source and every raw line that does not
name it, reading the message again gives the same diagnostic if and only if the line is a text
without codes that has codes put between its characters. For these lines, and no others, the
message holds no code; and it does not name the source. For any other line, where stripping makes
a code of what stood around another one, the second message is shorter. -/
theorem read_again_iff (h : ¬Names name.toList (bareLine raw)) :
    let first := ofLine name raw time
    let second := ofLine name first.message time
    (second = first ↔ ∃ plain, Colour.Plain plain ∧ Colour.Coloured plain raw.toList) ∧
    (Colour.Plain first.message.toList ↔
      ∃ plain, Colour.Plain plain ∧ Colour.Coloured plain raw.toList) ∧
    (second = first → ¬Names name.toList (bareLine first.message)) ∧
    (second ≠ first → second.message.length < first.message.length) := by
  intro first second
  have hfirst : first = ⟨.notice, String.ofList (bareLine raw), none, time⟩ :=
    ofLine_of_not_names h
  have hmessage : first.message.toList = bareLine raw := by rw [hfirst, String.toList_ofList]
  have hplain : Colour.Plain first.message.toList ↔
      ∃ plain, Colour.Plain plain ∧ Colour.Coloured plain raw.toList := by
    rw [hmessage, bareLine, Colour.plain_trim_iff, Colour.plain_strip_iff]
  have hbare (hcodes : Colour.Plain first.message.toList) :
      bareLine first.message = bareLine raw :=
    bareLine_message_of_plain h (hmessage ▸ hcodes)
  have hshorter (hcodes : ¬Colour.Plain first.message.toList) :
      second.message.length < first.message.length := by
    have hstrip := (isInfix_message name first.message time).trans (Text.isInfix_trim _)
    have hlt := lt_of_not_ge (mt Colour.plain_of_length_le hcodes)
    rw [← String.length_toList, ← String.length_toList]
    exact lt_of_le_of_lt hstrip.length_le hlt
  have hagain : second = first ↔ Colour.Plain first.message.toList := by
    constructor
    · intro heq
      by_contra hcodes
      exact (hshorter hcodes).ne (by rw [heq])
    · intro hcodes
      have hnot : ¬Names name.toList (bareLine first.message) := hbare hcodes ▸ h
      rw [show second = _ from ofLine_of_not_names hnot, hbare hcodes, hfirst]
  exact ⟨hagain.trans hplain, hplain, fun heq => hbare (hagain.mp heq) ▸ h,
    fun hne => hshorter (mt hagain.mpr hne)⟩

/-- A complaint about the song with a code inside a code in front of it. -/
private def nested : String :=
  "\x1b[3\x1b[0m1msong.cho:5: error: bad directive"

/-- Read again, the notice about no line becomes an error in line 5. -/
theorem nested_codes_read_again :
    ¬Names "song.cho".toList (bareLine nested) ∧
    ofLine "song.cho" nested 0 =
      ⟨.notice, "\x1b[31msong.cho:5: error: bad directive", none, 0⟩ ∧
    ofLine "song.cho" (ofLine "song.cho" nested 0).message 0 =
      ⟨.error, "error: bad directive", some 5, 0⟩ ∧
    ¬∃ plain, Colour.Plain plain ∧ Colour.Coloured plain nested.toList := by
  have hnot : ¬Names "song.cho".toList (bareLine nested) := by decide +kernel
  have hfirst : ofLine "song.cho" nested 0 =
      ⟨.notice, "\x1b[31msong.cho:5: error: bad directive", none, 0⟩ := by
    decide +kernel
  have hsecond : ofLine "song.cho" (ofLine "song.cho" nested 0).message 0 =
      ⟨.error, "error: bad directive", some 5, 0⟩ := by
    decide +kernel
  refine ⟨hnot, hfirst, hsecond, fun hcoloured => ?_⟩
  have halike : ofLine "song.cho" (ofLine "song.cho" nested 0).message 0 =
      ofLine "song.cho" nested 0 :=
    (read_again_iff hnot).1.mpr hcoloured
  rw [hsecond, hfirst] at halike
  cases halike

/-- Not every line that does not name the source is read alike a second time. -/
theorem not_every_line_read_alike : ¬∀ (name raw : String) (time : Int),
    ¬Names name.toList (bareLine raw) →
      ofLine name (ofLine name raw time).message time = ofLine name raw time :=
  fun halike => absurd (halike "song.cho" nested 0 (by decide +kernel)) (by decide +kernel)

end Diagnostic

end SongPreview
