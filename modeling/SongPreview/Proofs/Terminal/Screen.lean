import SongPreview.Proofs.Diagnostic.Stripping
import SongPreview.Terminal
import Mathlib.Data.List.DropRight

/-!
# What a terminal shows

A terminal as far as this program uses one: characters go into the row of the cursor, a line break
leads to the start of the next row, and a sequence behind an escape character moves the cursor up,
clears what is behind it, or sets a colour. There is room for everything, so that nothing wraps and
nothing scrolls. A text without other control characters shows as its lines, whatever its colours,
and going up over some rows and clearing leaves the rows above them.
-/

namespace SongPreview

namespace Colour

variable {plain raw plain' raw' : List Char}

theorem Coloured.append (h : Coloured plain raw) (h' : Coloured plain' raw') :
    Coloured (plain ++ plain') (raw ++ raw') := by
  induction h with
  | nil => exact h'
  | char c _ ih => exact .char c ih
  | code complete _ ih =>
    rw [List.append_assoc]
    exact .code complete ih

/-- No line break stands in a code. -/
theorem Coloured.count_newline (h : Coloured plain raw) : raw.count '\n' = plain.count '\n' := by
  induction h with
  | nil => rfl
  | char c _ ih => rw [List.count_cons, List.count_cons, ih]
  | @code plain raw code complete _ ih =>
    have hnone : '\n' ∉ code := by
      obtain ⟨c, rest, rfl⟩ := List.exists_cons_of_ne_nil complete.ne_nil
      obtain ⟨rfl, hcontinues⟩ := complete.continues_of_mem
      rw [List.mem_cons, not_or]
      exact ⟨by decide, fun hmem => absurd (hcontinues _ hmem) (by decide)⟩
    rw [List.count_append, ih, List.count_eq_zero.mpr hnone, Nat.zero_add]

theorem isCode_sequence {parameters : String} (h : parameters.toList.all isParameter = true) :
    IsCode (sequence parameters "m").toList := by
  refine ⟨parameters.toList, List.all_eq_true.mp h, ?_⟩
  simp [sequence]

/-- The codes of a style are complete. -/
theorem isCode_on (style : Style) : IsCode (sequence style.on "m").toList :=
  isCode_sequence (by cases style <;> decide)

theorem isCode_off (style : Style) : IsCode (sequence style.off "m").toList :=
  isCode_sequence (by cases style <;> decide)

end Colour

namespace Terminal

open Colour (Coloured IsCode isParameter strip)

/-- What a terminal shows. The rows above the cursor begin with the nearest one. -/
structure Screen where
  above : List (List Char) := []
  row : List Char := []
  column : Nat := 0
  below : List (List Char) := []
  deriving DecidableEq, Repr

namespace Screen

/-- A character in the place of what is under the cursor. A gap in front of it is blank. -/
def write (s : Screen) (c : Char) : Screen :=
  { s with
    row := s.row.take s.column ++ List.replicate (s.column - s.row.length) ' ' ++
      c :: s.row.drop (s.column + 1)
    column := s.column + 1 }

/-- The start of the next row. -/
def breakLine (s : Screen) : Screen :=
  { above := s.row :: s.above, row := s.below.headD [], column := 0, below := s.below.tail }

/-- A character of a text. -/
def put (s : Screen) (c : Char) : Screen :=
  if c = '\n' then s.breakLine else s.write c

/-- One row up, unless the cursor is at the top. -/
def up (s : Screen) : Screen :=
  match s.above with
  | [] => s
  | row :: above => { above, row, column := s.column, below := s.row :: s.below }

/-- Clears the row behind the cursor. -/
def clearRow (s : Screen) : Screen :=
  { s with row := s.row.take s.column }

/-- Clears the row behind the cursor and every row below. -/
def clearBelow (s : Screen) : Screen :=
  { s.clearRow with below := [] }

/-- The first number among the parameters of a sequence, zero if there is none. -/
def number (parameters : List Char) : Nat :=
  Nat.ofDigitChars 10 (parameters.takeWhile Char.isDigit) 0

/-- What a sequence does, by its parameters and its last letter. Going up by zero rows is going up
by one. A sequence that sets a colour, or is not used here, leaves the screen as it is. -/
def obey (s : Screen) (parameters : List Char) : Char → Screen
  | 'A' => up^[max 1 (number parameters)] s
  | 'J' => if number parameters = 0 then s.clearBelow else s
  | 'K' => if number parameters = 0 then s.clearRow else s
  | _ => s

/-- Some rows, and the cursor at the start of the empty one below them. -/
def under (rows : List (List Char)) : Screen :=
  { above := rows.reverse }

end Screen

/-- How far a terminal is in a sequence. -/
inductive Reading where
  /-- Not in a sequence. -/
  | text
  /-- Behind the escape character. -/
  | escape
  | sequence (parameters : List Char)
  deriving DecidableEq, Repr

/-- A terminal that gets characters one after the other. -/
structure Emulator where
  screen : Screen := {}
  reading : Reading := .text
  deriving DecidableEq, Repr

namespace Emulator

/-- The terminal after one more character. -/
def take (e : Emulator) (c : Char) : Emulator :=
  match e.reading with
  | .text =>
    if c = '\x1b' then { e with reading := .escape } else { e with screen := e.screen.put c }
  | .escape => { e with reading := if c = '[' then .sequence [] else .text }
  | .sequence parameters =>
    if isParameter c then { e with reading := .sequence (parameters ++ [c]) }
    else { screen := e.screen.obey parameters c }

/-- The terminal after a text. -/
def feed (e : Emulator) (text : List Char) : Emulator :=
  text.foldl take e

end Emulator

/-- What an empty terminal shows after a text. -/
def replay (text : String) : Screen :=
  (Emulator.feed {} text.toList).screen

/-- A character that a terminal does not show but obeys. -/
def isControl (c : Char) : Bool :=
  c.toNat < 0x20 || (0x7f ≤ c.toNat && c.toNat < 0xa0)

/-- A text that shows as its lines: apart from complete colour codes, it holds no control characters
but line breaks. -/
def Showable (text : List Char) : Prop :=
  ∀ c ∈ strip text, c = '\n' ∨ isControl c = false

instance (text : List Char) : Decidable (Showable text) :=
  List.decidableBAll (fun c => c = '\n' ∨ isControl c = false) (strip text)

/-- The lines of a text, without its colours. -/
def linesOf (text : List Char) : List (List Char) :=
  (strip text).splitOn '\n'

section

variable {text text' plain raw code parameters : List Char} {s : Screen} {e : Emulator} {c : Char}
  {rows : List (List Char)}

/-! ### Texts that can be shown -/

theorem Showable.escape_not_mem (h : Showable text) : '\x1b' ∉ strip text := fun hmem =>
  absurd (h _ hmem) (by decide)

/-- What can be shown is stripped apart from what follows. -/
theorem Showable.strip_append (h : Showable text) (h' : Showable text') :
    strip (text ++ text') = strip text ++ strip text' := by
  refine Colour.strip_of_coloured
    ((Colour.coloured_strip text).append (Colour.coloured_strip text')) ?_
  refine Colour.plain_of_not_mem fun hmem => ?_
  rcases List.mem_append.mp hmem with hmem | hmem
  · exact h.escape_not_mem hmem
  · exact h'.escape_not_mem hmem

theorem Showable.append (h : Showable text) (h' : Showable text') : Showable (text ++ text') := by
  rw [Showable, h.strip_append h', List.forall_mem_append]
  exact ⟨h, h'⟩

theorem showable_of_no_control (h : text.any isControl = false) : Showable text := by
  have hnone : ∀ c ∈ text, isControl c = false := by simpa using h
  have hplain : strip text = text := Colour.plain_iff_strip_eq.mp
    (Colour.plain_of_not_mem fun hmem => absurd (hnone _ hmem) (by decide))
  rw [Showable, hplain]
  exact fun c hc => .inr (hnone c hc)

theorem strip_code (h : IsCode code) : strip code = [] := by
  have hcode := Colour.strip_code_append h []
  rwa [List.append_nil, Colour.strip_nil] at hcode

theorem showable_code (h : IsCode code) : Showable code := by
  rw [Showable, strip_code h]
  exact nofun

theorem Showable.paint {text : String} (h : Showable text.toList) (style : Colour.Style) :
    Showable (Colour.paint style text).toList := by
  rw [Colour.paint, String.toList_append, String.toList_append]
  exact ((showable_code (Colour.isCode_on style)).append h).append
    (showable_code (Colour.isCode_off style))

/-- A text has one line more than line breaks. -/
theorem length_linesOf (text : List Char) : (linesOf text).length = text.count '\n' + 1 := by
  have hlength (s : List Char) : (s.splitOn '\n').length = s.count '\n' + 1 := by
    induction s with
    | nil => rfl
    | cons c s ih =>
      rw [List.splitOn] at ih ⊢
      rw [List.splitOnP_cons_eq_if_modifyHead]
      by_cases hc : c = '\n'
      · simp [hc, ih]
      · simp [hc, ih]
  rw [linesOf, hlength, (Colour.coloured_strip text).count_newline]

/-! ### Sequences -/

theorem feed_append (e : Emulator) (text text' : List Char) :
    e.feed (text ++ text') = (e.feed text).feed text' :=
  List.foldl_append

/-- A whole sequence is obeyed. -/
theorem feed_sequence (hparameters : ∀ c ∈ parameters, isParameter c = true)
    (hc : isParameter c = false) :
    Emulator.feed ⟨s, .text⟩ ('\x1b' :: '[' :: (parameters ++ [c])) =
      ⟨s.obey parameters c, .text⟩ := by
  have hread (read left : List Char) (h : ∀ c ∈ left, isParameter c = true) :
      Emulator.feed ⟨s, .sequence read⟩ left = ⟨s, .sequence (read ++ left)⟩ := by
    induction left generalizing read with
    | nil => simp [Emulator.feed]
    | cons p left ih =>
      obtain ⟨hp, hleft⟩ := List.forall_mem_cons.mp h
      have hfirst : Emulator.take ⟨s, .sequence read⟩ p = ⟨s, .sequence (read ++ [p])⟩ := by
        simp [Emulator.take, hp]
      have hrest := ih (read ++ [p]) hleft
      rw [List.append_assoc] at hrest
      rw [Emulator.feed, List.foldl_cons, hfirst]
      exact hrest
  have hopen : Emulator.feed ⟨s, .text⟩ ['\x1b', '['] = ⟨s, .sequence []⟩ := rfl
  have hlast : Emulator.feed ⟨s, .sequence parameters⟩ [c] = ⟨s.obey parameters c, .text⟩ := by
    simp [Emulator.feed, Emulator.take, hc]
  rw [← List.cons_append, ← List.cons_append, feed_append]
  change Emulator.feed (Emulator.feed _ (['\x1b', '['] ++ parameters)) [c] = _
  rw [feed_append, hopen, hread [] parameters hparameters, List.nil_append, hlast]

/-- A colour code changes nothing. -/
theorem feed_code (h : IsCode code) : Emulator.feed ⟨s, .text⟩ code = ⟨s, .text⟩ := by
  obtain ⟨parameters, hparameters, rfl⟩ := h
  exact feed_sequence hparameters (by decide)

/-- A text is shown without its colours. -/
theorem feed_coloured (h : Coloured plain raw) (hescape : '\x1b' ∉ plain) (s : Screen) :
    Emulator.feed ⟨s, .text⟩ raw = ⟨plain.foldl Screen.put s, .text⟩ := by
  induction h generalizing s with
  | nil => rfl
  | char c _ ih =>
    obtain ⟨hc, hrest⟩ := not_or.mp (mt List.mem_cons.mpr hescape)
    have hfirst : Emulator.take ⟨s, .text⟩ c = ⟨s.put c, .text⟩ := by
      simp [Emulator.take, Ne.symm hc]
    rw [Emulator.feed, List.foldl_cons, hfirst]
    exact ih hrest _
  | code complete _ ih => rw [feed_append, feed_code complete, ih hescape]

/-! ### Lines -/

/-- Below everything, a line goes on from where the cursor is, and the next ones follow. -/
theorem foldl_put_line (text : List Char) (above : List (List Char)) {row : List Char}
    (hrow : '\n' ∉ row) :
    (text ++ ['\n']).foldl Screen.put { above, row, column := row.length } =
      { above := ((row ++ text).splitOn '\n').reverse ++ above } := by
  induction text generalizing above row with
  | nil => simp [Screen.put, Screen.breakLine, List.splitOn_eq_singleton hrow]
  | cons c text ih =>
    rw [List.cons_append, List.foldl_cons]
    by_cases hc : c = '\n'
    · have hnext := ih (row :: above) List.not_mem_nil
      rw [hc, List.splitOn_append_cons_self, List.splitOn_eq_singleton hrow]
      simpa [Screen.put, Screen.breakLine] using hnext
    · have hlonger : '\n' ∉ row ++ [c] := by simp [hrow, Ne.symm hc]
      have hnext := ih above hlonger
      have hwritten : row.take row.length ++ List.replicate (row.length - row.length) ' ' ++
          c :: row.drop (row.length + 1) = row ++ [c] := by
        simp
      rw [Screen.put, if_neg hc, Screen.write, hwritten]
      simpa using hnext

/-- A line of text is shown below the rows that are there. -/
theorem feed_line (h : Showable text) (rows : List (List Char)) :
    Emulator.feed ⟨.under rows, .text⟩ (text ++ ['\n']) =
      ⟨.under (rows ++ linesOf text), .text⟩ := by
  have hbreak : Coloured ['\n'] ['\n'] := .char '\n' .nil
  have hescape : '\x1b' ∉ strip text ++ ['\n'] := by
    simpa using h.escape_not_mem
  rw [feed_coloured ((Colour.coloured_strip text).append hbreak) hescape]
  have hlines := foldl_put_line (strip text) rows.reverse List.not_mem_nil
  rw [Screen.under, Screen.under, linesOf, List.reverse_append]
  exact congrArg (Emulator.mk · .text) hlines

/-! ### Going back -/

/-- From below some rows, clearing behind a way up leaves the rows above. -/
theorem clearBelow_up (n : Nat) (above below : List (List Char)) (row : List Char) :
    (Screen.up^[n] { above, row, column := 0, below }).clearBelow = { above := above.drop n } := by
  induction n generalizing above below row with
  | zero => simp [Screen.clearBelow, Screen.clearRow]
  | succ n ih =>
    rw [Function.iterate_succ_apply]
    cases above with
    | nil => simpa [Screen.up] using ih [] below row
    | cons next above => exact ih above (row :: below) next

/-- Going up over some rows and clearing takes them away. -/
theorem feed_clearing {n : Nat} (hn : 0 < n) (rows : List (List Char)) :
    Emulator.feed ⟨.under rows, .text⟩
        (Colour.sequence (toString n) "A" ++ Colour.sequence "" "J").toList =
      ⟨.under (rows.rdrop n), .text⟩ := by
  have hdigits : ∀ c ∈ Nat.toDigits 10 n, c.isDigit = true := fun c hc =>
    Nat.isDigit_of_mem_toDigits (by decide) (by decide) hc
  have hnumber : max 1 (Screen.number (Nat.toDigits 10 n)) = n := by
    rw [Screen.number, List.takeWhile_eq_self_iff.mpr hdigits, Nat.ofDigitChars_ten_toDigits]
    exact Nat.max_eq_right hn
  have hup : (Colour.sequence (toString n) "A").toList =
      '\x1b' :: '[' :: (Nat.toDigits 10 n ++ ['A']) := by
    simp [Colour.sequence]
  have hclear : (Colour.sequence "" "J").toList = '\x1b' :: '[' :: ([] ++ ['J']) := rfl
  have hparameters : ∀ c ∈ Nat.toDigits 10 n, isParameter c = true := fun c hc => by
    simp [isParameter, hdigits c hc]
  rw [String.toList_append, hup, hclear, feed_append, feed_sequence hparameters (by decide),
    feed_sequence (List.forall_mem_nil _) (by decide)]
  have hrows := clearBelow_up n rows.reverse [] []
  simp only [Screen.obey, hnumber]
  change Emulator.mk (Screen.up^[n] (.under rows)).clearBelow .text = _
  rw [Screen.under, hrows, Screen.under, List.rdrop_eq_reverse_drop_reverse, List.reverse_reverse]

/-- In an empty row there is nothing to clear. -/
theorem feed_clearRow (rows : List (List Char)) :
    Emulator.feed ⟨.under rows, .text⟩ (Colour.sequence "" "K").toList =
      ⟨.under rows, .text⟩ := by
  have hclear : (Colour.sequence "" "K").toList = '\x1b' :: '[' :: ([] ++ ['K']) := rfl
  rw [hclear, feed_sequence (List.forall_mem_nil _) (by decide)]
  rfl

end

end Terminal

end SongPreview
