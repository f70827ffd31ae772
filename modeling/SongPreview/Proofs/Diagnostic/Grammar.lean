import SongPreview.Diagnostic.Reading
import SongPreview.Proofs.Diagnostic.Stripping

/-!
# The grammar of diagnostic lines

A line is attributed to the song if it names the source in front, plainly or in double quotes,
and a line number behind it. This file states the grammar apart from the reader and shows that
the reader accepts it and nothing else. The two ways to name a source exclude each other, also
where the source itself holds quotes, colons or digits, so a line is read in one way only.
-/

namespace SongPreview.Diagnostic

variable {source line rest message : List Char} {n : Nat} {severity : Severity}

/-- The ways to name the source in front of a line. -/
def fronts (source : List Char) : List (List Char) :=
  [source ++ [':'], '"' :: source ++ ['"', ':']]

/-- A text gives a line number and a message: spaces or tabs, a decimal numeral, a colon and text
without a line break, whose trimmed form is the message. -/
inductive Numbered : (rest : List Char) → (n : Nat) → (message : List Char) → Prop
  | mk {gap digits text : List Char} (gap_blank : ∀ c ∈ gap, c = ' ' ∨ c = '\t')
      (digits_ne_nil : digits ≠ []) (digits_decimal : ∀ c ∈ digits, c.isDigit = true)
      (text_unbroken : '\n' ∉ text) :
      Numbered (gap ++ digits ++ ':' :: text) (Nat.ofDigitChars 10 digits 0) (Text.trim text)

/-- A line names the source, and then gives a line number and a message. -/
def Attributed (source line : List Char) (n : Nat) (message : List Char) : Prop :=
  ∃ front ∈ fronts source, ∃ rest, line = front ++ rest ∧ Numbered rest n message

/-- A word stands in a message, with its letters in any case. -/
def Mentions (word message : List Char) : Prop :=
  ∃ part, part <:+: message ∧ part.map Char.toLower = word

/-- The severity that the words of a message call for. -/
inductive Announces (message : List Char) : Severity → Prop
  | error (loud : Mentions "error".toList message) : Announces message .error
  | warning (mild : ¬Mentions "error".toList message) (loud : Mentions "warning".toList message) :
      Announces message .warning
  | notice (mild : ¬Mentions "error".toList message)
      (silent : ¬Mentions "warning".toList message) : Announces message .notice

/-- A source that can be recognized in front of a line. -/
structure Nameable (source : List Char) : Prop where
  ne_nil : source ≠ []
  bare : Text.BareStart source
  plain : Colour.Plain source

/-- A message that a line can carry as it is. -/
structure Carriable (message : List Char) : Prop where
  unbroken : '\n' ∉ message
  bare : Text.Bare message
  plain : Colour.Plain message

/-! ### The source -/

/-- A line does not name the source in both ways: there would be one colon more in the first. -/
theorem front_unique {front front' rest' : List Char} (hfront : front ∈ fronts source)
    (hfront' : front' ∈ fronts source) (h : front ++ rest = front' ++ rest') : front = front' := by
  have hnot {rest rest' : List Char} :
      source ++ [':'] ++ rest ≠ '"' :: source ++ ['"', ':'] ++ rest' := by
    intro heq
    rw [List.append_assoc ('"' :: source)] at heq
    have hsame := congrArg (List.count ':') (List.append_inj heq (by simp)).1
    simp at hsame
  simp only [fronts, List.mem_cons, List.not_mem_nil, or_false] at hfront hfront'
  rcases hfront with rfl | rfl <;> rcases hfront' with rfl | rfl
  · rfl
  · exact absurd h hnot
  · exact absurd h.symm hnot
  · rfl

/-- The text behind the source is what follows one of its names. -/
theorem afterSource?_eq_some_iff : afterSource? source line = some rest ↔
    source ≠ [] ∧ ∃ front ∈ fronts source, Text.trimLeft line = front ++ rest := by
  rw [afterSource?]
  split
  · next hempty => simp [hempty]
  next hnamed =>
  simp only [Option.or_eq_some_iff, Text.behind?_eq_some_iff]
  constructor
  · rintro (hplain | ⟨-, hquoted⟩)
    · exact ⟨hnamed, _, by simp [fronts], hplain⟩
    · exact ⟨hnamed, _, by simp [fronts], hquoted⟩
  · rintro ⟨-, front, hfront, heq⟩
    have hcases : front = source ++ [':'] ∨ front = '"' :: source ++ ['"', ':'] := by
      simpa [fronts] using hfront
    rcases hcases with rfl | rfl
    · exact .inl heq
    · refine .inr ⟨?_, heq⟩
      rw [Option.eq_none_iff_forall_ne_some]
      intro other hother
      rw [Text.behind?_eq_some_iff, heq] at hother
      have hsame := front_unique hfront (by simp [fronts]) hother
      simpa using congrArg List.length hsame

/-- Nothing stands behind the source if the line does not name it, or there is none. -/
theorem afterSource?_eq_none_iff : afterSource? source line = none ↔
    source = [] ∨ ∀ front ∈ fronts source, ¬front <+: Text.trimLeft line := by
  rw [Option.eq_none_iff_forall_ne_some]
  simp only [ne_eq, afterSource?_eq_some_iff, not_and, not_exists]
  constructor
  · intro h
    by_cases hempty : source = []
    · exact .inl hempty
    · exact .inr fun front hfront ⟨rest, hrest⟩ => h rest hempty front hfront hrest.symm
  · rintro (rfl | h) rest hnamed front hfront heq
    · exact hnamed rfl
    · exact h front hfront ⟨rest, heq.symm⟩

/-! ### The line number -/

theorem numeral_eq (digits : List Char) : numeral digits = Nat.ofDigitChars 10 digits 0 :=
  Nat.ofDigitChars_eq_foldl.symm

theorem not_gap_of_isDigit {c : Char} (h : c.isDigit = true) : (c == ' ' || c == '\t') = false := by
  rw [Bool.or_eq_false_iff, beq_eq_false_iff_ne, beq_eq_false_iff_ne]
  constructor <;> rintro rfl <;> revert h <;> decide

/-- A line number is read exactly where the grammar has one, if it is in range. -/
theorem splitNumber_eq_some_iff : splitNumber rest = (some n, message) ↔
    n < Nat.pow 2 32 ∧ Numbered rest n message := by
  constructor
  · intro h
    rw [splitNumber] at h
    split at h
    · next text hcolon =>
      split at h
      · next hread =>
        dsimp only at h
        split at h
        · next hrange =>
          obtain ⟨hn, hmessage⟩ := Prod.mk.inj h
          obtain rfl := Option.some.inj hn
          obtain rfl := hmessage
          refine ⟨hrange, ?_⟩
          rw [numeral_eq]
          have hrest : rest = rest.takeWhile (fun c => c == ' ' || c == '\t') ++
              (rest.dropWhile fun c => c == ' ' || c == '\t').takeWhile Char.isDigit ++
                ':' :: text := by
            rw [← hcolon, List.append_assoc, List.takeWhile_append_dropWhile,
              List.takeWhile_append_dropWhile]
          conv => arg 1; rw [hrest]
          refine .mk (fun c hc => ?_) hread.1 (fun c hc => List.mem_takeWhile_imp hc) hread.2
          simpa using List.mem_takeWhile_imp hc
        · cases h
      · cases h
    · cases h
  · rintro ⟨hrange, ⟨hgap, hne, hdecimal, hunbroken⟩⟩
    rename_i gap digits text
    have hbody : (gap ++ digits ++ ':' :: text).dropWhile (fun c => c == ' ' || c == '\t') =
        digits ++ ':' :: text := by
      rw [List.append_assoc, List.dropWhile_append_of_pos (by simpa using hgap)]
      obtain ⟨d, digits, rfl⟩ := List.exists_cons_of_ne_nil hne
      exact List.dropWhile_cons_of_neg (by simp [not_gap_of_isDigit (hdecimal d (by simp))])
    have hdigits : (digits ++ ':' :: text).takeWhile Char.isDigit = digits := by
      rw [List.takeWhile_append_of_pos hdecimal]
      simp
    have hcolon : (digits ++ ':' :: text).dropWhile Char.isDigit = ':' :: text := by
      rw [List.dropWhile_append_of_pos hdecimal]
      rfl
    rw [← numeral_eq] at hrange ⊢
    simp only [splitNumber, hbody, hdigits, hcolon, hne, ne_eq, not_false_eq_true, hunbroken,
      and_self, if_true, hrange]

/-! ### The severity -/

theorem mentions_iff {word : List Char} : mentions word message = true ↔ Mentions word message := by
  rw [mentions, Text.occursIn_iff, List.infix_map_iff, Mentions]
  simp only [eq_comm]

/-- A message calls for one severity. -/
theorem Announces.unique {other : Severity} (h : Announces message severity)
    (h' : Announces message other) : severity = other := by
  cases h <;> cases h' <;> first | rfl | contradiction

theorem announced_eq_iff : announced message = severity ↔ Announces message severity := by
  have hannounces : Announces message (announced message) := by
    rw [announced]
    split
    · next h => exact .error (mentions_iff.mp h)
    next hmild =>
    rw [mentions_iff] at hmild
    split
    · next h => exact .warning hmild (mentions_iff.mp h)
    · next h => exact .notice hmild fun hloud => h (mentions_iff.mpr hloud)
  constructor
  · rintro rfl
    exact hannounces
  · exact hannounces.unique

/-! ### Lines -/

section

variable {raw name said : String} {time : Int}

/-- A line is read with a number exactly if the grammar attributes it, in range. -/
theorem ofLine_eq_attributed_iff : ofLine name raw time = ⟨severity, said, some n, time⟩ ↔
    name ≠ "" ∧ n < Nat.pow 2 32 ∧
      Attributed name.toList (Text.trim (Colour.strip raw.toList)) n said.toList ∧
      Announces said.toList severity := by
  have hname : name ≠ "" ↔ name.toList ≠ [] := by simp
  have hresult (number : Option Nat) (text : List Char) :
      (⟨announced text, String.ofList text, number, time⟩ : Diagnostic) =
          ⟨severity, said, some n, time⟩ ↔
        (number, text) = (some n, said.toList) ∧ Announces said.toList severity := by
    rw [← announced_eq_iff]
    constructor
    · intro h
      obtain ⟨rfl, rfl, rfl, -⟩ := Diagnostic.mk.inj h
      simp
    · rintro ⟨h, rfl⟩
      obtain ⟨rfl, rfl⟩ := Prod.mk.inj h
      simp
  rw [hname, ← Text.trimLeft_trimRight, ofLine]
  dsimp only
  split
  · next hnone =>
    constructor
    · exact nofun
    · rintro ⟨hnamed, -, ⟨front, hfront, rest, heq, -⟩, -⟩
      rw [afterSource?_eq_none_iff] at hnone
      exact (hnone.resolve_left hnamed front hfront ⟨rest, heq.symm⟩).elim
  · next rest hsome =>
    obtain ⟨hnamed, front, hfront, heq⟩ := afterSource?_eq_some_iff.mp hsome
    have hattributed : Attributed name.toList
        (Text.trimLeft (Text.trimRight (Colour.strip raw.toList))) n said.toList ↔
          Numbered rest n said.toList := by
      rw [Attributed, heq]
      constructor
      · rintro ⟨front', hfront', rest', heq', hnumbered⟩
        obtain rfl := front_unique hfront hfront' heq'
        exact List.append_cancel_left heq' ▸ hnumbered
      · exact fun hnumbered => ⟨front, hfront, rest, rfl, hnumbered⟩
    rw [hattributed, hresult, and_iff_right hnamed, ← and_assoc, ← splitNumber_eq_some_iff]

/-- A line that does not name the source is a notice as a whole. -/
theorem ofLine_of_not_named
    (h : ∀ front ∈ fronts name.toList, ¬front <+: Text.trim (Colour.strip raw.toList)) :
    ofLine name raw time =
      ⟨.notice, String.ofList (Text.trim (Colour.strip raw.toList)), none, time⟩ := by
  rw [← Text.trimLeft_trimRight] at h ⊢
  have hnone := afterSource?_eq_none_iff.mpr (.inr h)
  simp only [ofLine, hnone, unattributed]

end

/-! ### Written lines -/

section

variable {lead trail front : List Char}

/-- No blank is an escape character or belongs to a code. -/
theorem escape_not_mem (h : ∀ c ∈ trail, Text.isBlank c = true) : '\x1b' ∉ trail :=
  fun hmem => absurd (h _ hmem) (by decide)

theorem continues_of_isBlank {c : Char} (h : Text.isBlank c = true) :
    Colour.continues c = false := by
  rw [← Bool.not_eq_true]
  intro hcontinues
  have hcases : c = '[' ∨ (c.isDigit = true ∨ c = ';') ∨ c = 'm' := by
    simpa [Colour.continues, Colour.isParameter, or_assoc] using hcontinues
  rcases hcases with rfl | (hdigit | rfl) | rfl
  · exact absurd h (by decide)
  · obtain ⟨hlow, hhigh⟩ : 48 ≤ c.toNat ∧ c.toNat ≤ 57 := by
      simpa [Char.isDigit, UInt32.le_iff_toNat_le] using hdigit
    simp [Text.isBlank] at h
    omega
  · exact absurd h (by decide)
  · exact absurd h (by decide)

/-- A text is still without codes if blanks follow it. -/
theorem plain_append_blanks {s : List Char} (h : Colour.Plain s)
    (htrail : ∀ c ∈ trail, Text.isBlank c = true) : Colour.Plain (s ++ trail) := by
  have hplain := Colour.plain_of_not_mem (escape_not_mem htrail)
  cases trail with
  | nil => simpa using h
  | cons c trail => exact h.append_cons (continues_of_isBlank (htrail c (by simp))) hplain

/-- A line that is written by the grammar has no codes of its own. -/
theorem plain_written (hsource : Nameable source) (hmessage : Carriable message)
    (hlead : ∀ c ∈ lead, Text.isBlank c = true) (htrail : ∀ c ∈ trail, Text.isBlank c = true)
    (hfront : front ∈ fronts source) (n : Nat) :
    Colour.Plain (lead ++ (front ++ Nat.toDigits 10 n ++ ':' :: ' ' :: message) ++ trail) := by
  -- the source and the message have no codes, and no character around them can be part of one
  have hdigits : '\x1b' ∉ Nat.toDigits 10 n := fun hmem =>
    absurd (Nat.isDigit_of_mem_toDigits (by decide) (by decide) hmem) (by decide)
  have hnumber : Colour.Plain (':' :: (Nat.toDigits 10 n ++ ':' :: ' ' :: (message ++ trail))) :=
    (.cons (by decide) (.append_left hdigits (.cons (by decide) (.cons (by decide)
      (plain_append_blanks hmessage.plain htrail)))))
  have hcases : front = source ++ [':'] ∨ front = '"' :: source ++ ['"', ':'] := by
    simpa [fronts] using hfront
  rcases hcases with rfl | rfl
  · have hline := hsource.plain.append_cons (by decide) hnumber
    simpa using Colour.Plain.append_left (escape_not_mem hlead) hline
  · have hline := hsource.plain.append_cons (by decide) (hnumber.cons (c := '"') (by decide))
    simpa using Colour.Plain.append_left (escape_not_mem hlead) (hline.cons (c := '"') (by decide))

theorem bareStart_front (hsource : Nameable source) (hfront : front ∈ fronts source)
    (rest : List Char) : Text.BareStart (front ++ rest) := by
  have hcases : front = source ++ [':'] ∨ front = '"' :: source ++ ['"', ':'] := by
    simpa [fronts] using hfront
  obtain ⟨c, source, rfl⟩ := List.exists_cons_of_ne_nil hsource.ne_nil
  rcases hcases with rfl | rfl
  · exact hsource.bare
  · rintro c ⟨⟩
    decide

/-- A line that is written by the grammar is attributed by it. -/
theorem attributed_written (hsource : Nameable source) (hmessage : Carriable message)
    (hlead : ∀ c ∈ lead, Text.isBlank c = true) (htrail : ∀ c ∈ trail, Text.isBlank c = true)
    (hfront : front ∈ fronts source) (n : Nat) :
    Attributed source
      (Text.trim (lead ++ (front ++ Nat.toDigits 10 n ++ ':' :: ' ' :: message) ++ trail))
      n message := by
  have hline :
      Text.trim (lead ++ (front ++ Nat.toDigits 10 n ++ ':' :: ' ' :: message) ++ trail) =
        front ++ ([] ++ Nat.toDigits 10 n ++ ':' :: Text.trimRight (' ' :: message)) := by
    rw [← Text.trimLeft_trimRight, Text.trimRight_append htrail, Text.trimLeft_trimRight, Text.trim,
      Text.trimLeft_append hlead, List.append_assoc front,
      (bareStart_front hsource hfront _).trimLeft_eq, ← List.append_assoc front,
      Text.trimRight_append_cons (by decide)]
    simp
  have htext : Text.trim (Text.trimRight (' ' :: message)) = message := by
    rw [← Text.trimLeft_trimRight, Text.trimRight_trimRight, Text.trimLeft_trimRight, Text.trim,
      show Text.trimLeft (' ' :: message) = Text.trimLeft message from
        List.dropWhile_cons_of_pos (by decide)]
    exact hmessage.bare.trim_eq
  have hunbroken : '\n' ∉ Text.trimRight (' ' :: message) := by
    intro hmem
    have hmem' := (Text.trimRight_prefix _).subset hmem
    simp [hmessage.unbroken] at hmem'
  refine ⟨front, hfront, _, hline, ?_⟩
  have hgap : ∀ c ∈ ([] : List Char), c = ' ' ∨ c = '\t' := List.forall_mem_nil _
  have hnumbered := Numbered.mk hgap Nat.toDigits_ne_nil
    (fun c hc => Nat.isDigit_of_mem_toDigits (b := 10) (n := n) (by decide) (by decide) hc)
    hunbroken
  rwa [Nat.ofDigitChars_ten_toDigits, htext] at hnumbered

end

/-- **The reader accepts its grammar and nothing else.** For every source and every raw line:
whatever names the source in front of a number in range and a message, with any colour codes
between its characters and any blanks around it, is read as this number, this message and the
severity that its words call for. A number is read only where the line, stripped of codes and
blanks, has this form. A line that does not name the source is a notice as a whole. -/
theorem reads_exactly_grammar (name raw : String) (time : Int) :
    (∀ (n : Nat) (message lead trail : List Char), Nameable name.toList → Carriable message →
      n < Nat.pow 2 32 → (∀ c ∈ lead, Text.isBlank c = true) →
      (∀ c ∈ trail, Text.isBlank c = true) → ∀ front ∈ fronts name.toList,
      Colour.Coloured (lead ++ (front ++ (toString n).toList ++ ':' :: ' ' :: message) ++ trail)
        raw.toList →
      ∃ severity, Announces message severity ∧
        ofLine name raw time = ⟨severity, String.ofList message, some n, time⟩) ∧
    (∀ n, (ofLine name raw time).line = some n → n < Nat.pow 2 32 ∧
      Attributed name.toList (Text.trim (Colour.strip raw.toList)) n
        (ofLine name raw time).message.toList ∧
      Announces (ofLine name raw time).message.toList (ofLine name raw time).severity) ∧
    ((∀ front ∈ fronts name.toList, ¬front <+: Text.trim (Colour.strip raw.toList)) →
      ofLine name raw time =
        ⟨.notice, String.ofList (Text.trim (Colour.strip raw.toList)), none, time⟩) := by
  refine ⟨?_, ?_, ofLine_of_not_named⟩
  · intro n message lead trail hsource hmessage hrange hlead htrail front hfront hraw
    rw [Nat.toString_eq_ofList_toDigits, String.toList_ofList] at hraw
    have hstrip := Colour.strip_of_coloured hraw
      (plain_written hsource hmessage hlead htrail hfront n)
    refine ⟨announced message, announced_eq_iff.mp rfl, ?_⟩
    have hnamed : name ≠ "" := by simpa using hsource.ne_nil
    rw [ofLine_eq_attributed_iff, hstrip, String.toList_ofList]
    exact ⟨hnamed, hrange, attributed_written hsource hmessage hlead htrail hfront n,
      announced_eq_iff.mp rfl⟩
  · intro n hn
    have htime : (ofLine name raw time).time = time := by
      rw [ofLine]
      dsimp only
      split <;> rfl
    rcases hread : ofLine name raw time with ⟨severity, said, number, moment⟩
    rw [hread] at hn htime
    obtain rfl : number = some n := hn
    obtain rfl : moment = time := htime
    obtain ⟨-, hrange, hattributed, hannounces⟩ := ofLine_eq_attributed_iff.mp hread
    exact ⟨hrange, hattributed, hannounces⟩

/-- A message that holds a code without its end. -/
private def unfinished : List Char :=
  "Warning: \x1b[3 chord".toList

/-- A line in colours, with a code directly behind the one without its end. -/
private def coloured : String :=
  "\x1b[31m \"song\x1b[0m.cho\":12: Warn\x1b[1ming: \x1b[3\x1b[0m chord\x0d\n"

/-- What the line shows, with the blanks around it. -/
private def shown : List Char :=
  [' '] ++ ("\"song.cho\":".toList ++ "12".toList ++ ':' :: ' ' :: unfinished) ++ ['\x0d', '\n']

/-- A line in quotes, colours and blanks is read for what it says, and one about another song is
a notice. -/
theorem coloured_warning_read :
    (Nameable "song.cho".toList ∧ Carriable unfinished ∧
      Colour.Coloured shown coloured.toList ∧
      ofLine "song.cho" coloured 0 = ⟨.warning, String.ofList unfinished, some 12, 0⟩) ∧
    Attributed "song.cho".toList (Text.trim shown) 12 unfinished ∧
    (∀ front ∈ fronts "song.cho".toList, ¬front <+: "other.cho:4: error: boom".toList) ∧
    ofLine "song.cho" "other.cho:4: error: boom" 0 =
      ⟨.notice, "other.cho:4: error: boom", none, 0⟩ := by
  have hsource : Nameable "song.cho".toList :=
    ⟨by decide +kernel, by decide +kernel, by decide +kernel⟩
  have hmessage : Carriable unfinished :=
    ⟨by decide +kernel, by decide +kernel, by decide +kernel⟩
  have hstrip : Colour.strip coloured.toList = shown := by decide +kernel
  have hraw : Colour.Coloured shown coloured.toList := hstrip ▸ Colour.coloured_strip _
  obtain ⟨hgrammar, hnumber, -⟩ := reads_exactly_grammar "song.cho" coloured 0
  have hblank : [' '].all Text.isBlank ∧ ['\x0d', '\n'].all Text.isBlank := by decide
  obtain ⟨severity, hannounces, hread⟩ := hgrammar 12 unfinished [' '] ['\x0d', '\n'] hsource
    hmessage (by decide) (List.all_eq_true.mp hblank.1) (List.all_eq_true.mp hblank.2)
    "\"song.cho\":".toList (by decide) hraw
  obtain rfl : .warning = severity := (announced_eq_iff.mp (by decide +kernel)).unique hannounces
  have hattributed := (hnumber 12 (by rw [hread])).2.1
  rw [hread, hstrip, String.toList_ofList] at hattributed
  have hother : Text.trim (Colour.strip "other.cho:4: error: boom".toList) =
      "other.cho:4: error: boom".toList := by
    decide +kernel
  have hnotice := (reads_exactly_grammar "song.cho" "other.cho:4: error: boom" 0).2.2
  rw [hother, String.ofList_toList] at hnotice
  exact ⟨⟨hsource, hmessage, hraw, hread⟩, hattributed, by decide, hnotice (by decide)⟩

end SongPreview.Diagnostic
