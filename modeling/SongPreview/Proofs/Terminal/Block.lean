import SongPreview.Layout
import SongPreview.Proofs.Terminal.Screen

/-!
# What the status block replaces

The status block remembers how many lines it has, and goes up over as many when it is printed
again. Lines of the log are not counted. So a block is replaced by the next one if nothing else was
printed in between; otherwise the next one takes away as many rows from the end, lines of the log
among them, and the old block stays in part.
-/

namespace SongPreview.Terminal

/-- In front of the message of a report, in the same line, stand the time and the mark. -/
def statusFront (time : Int) (mark : Mark) : String :=
  Colour.paint .dimmed ("[" ++ Layout.clockTime time ++ "]") ++ " " ++ mark.text

/-- What prints lines. -/
inductive Call where
  /-- The status block, with a report at a time. -/
  | status (time : Int) (report : StatusReport)
  | log (name message : String)
  | entry (d : Diagnostic)
  /-- A line of the log that is printed only if more is wanted. -/
  | debug (name message : String)
  deriving DecidableEq, Repr

/-- Whether a line belongs to the log or to the status block. -/
inductive Printer where
  | log
  | status
  deriving DecidableEq, Repr

/-- A row of the screen, and who printed it. -/
structure Row where
  printer : Printer
  text : List Char
  deriving DecidableEq, Repr

namespace Call

/-- What a call prints, and the block that it leaves. -/
def print (verbose : Bool) (b : StatusBlock) : Call → String × StatusBlock
  | status time report => b.display (Layout.clockTime time) report
  | log name message => (logLine name message, b)
  | entry d => (diagnosticLine d, b)
  | debug name message => (debugLine verbose name message, b)

/-- Who prints with a call. -/
def printer : Call → Printer
  | status .. => .status
  | _ => .log

/-- The text of a call, apart from what clears the place for it and the line break at the end. -/
def text? (verbose : Bool) : Call → Option String
  | status time report => some (statusFront time report.mark ++ report.message)
  | log name message => some (tag name ++ " " ++ message)
  | entry d => some (tag d.severity.label ++ " " ++ d.text)
  | debug name message => if verbose then some (tag name ++ " " ++ message) else none

/-- The rows of a call. -/
def rows (verbose : Bool) (c : Call) : List Row :=
  (c.text? verbose).toList.flatMap fun text => (linesOf text.toList).map (Row.mk c.printer)

/-- The texts of a call can be shown, and a report has fewer lines than fit into sixteen bits. -/
def Presentable : Call → Prop
  | status _ report =>
    Showable report.message.toList ∧ StatusBlock.lineCount report.message < 65536
  | log name message | debug name message => Showable name.toList ∧ Showable message.toList
  | entry d => Showable d.text.toList

instance : DecidablePred Presentable
  | .status .. | .log .. | .debug .. => inferInstanceAs (Decidable (_ ∧ _))
  | .entry d => inferInstanceAs (Decidable (Showable d.text.toList))

end Call

/-- What some calls print, one after the other. -/
def printed (verbose : Bool) : StatusBlock → List Call → String
  | _, [] => ""
  | b, c :: calls => (c.print verbose b).1 ++ printed verbose (c.print verbose b).2 calls

/-- The rows on the screen, from the top, and how many the last status block has. -/
structure Board where
  rows : List Row := []
  block : Nat := 0
  deriving DecidableEq, Repr

namespace Board

/-- The board after one more call. A status block takes away as many rows from the end as the last
one has, whatever these are. -/
def take (verbose : Bool) (b : Board) (c : Call) : Board :=
  match c.printer with
  | .status => ⟨b.rows.rdrop b.block ++ c.rows verbose, (c.rows verbose).length⟩
  | .log => ⟨b.rows ++ c.rows verbose, b.block⟩

/-- The board after some calls. -/
def after (verbose : Bool) (calls : List Call) : Board :=
  calls.foldl (take verbose) {}

end Board

variable {verbose : Bool} {calls : List Call} {c : Call} {b : StatusBlock} {text : String}

/-! ### The texts of a call -/

theorem isControl_of_isDigit {c : Char} (h : c.isDigit = true) : isControl c = false := by
  simp only [Char.isDigit, Bool.and_eq_true, decide_eq_true_eq] at h
  obtain ⟨hlow, hhigh⟩ := h
  have h₁ : 48 ≤ c.toNat := hlow
  have h₂ : c.toNat ≤ 57 := hhigh
  simp [isControl]
  omega

/-- A time of day is digits and colons. -/
theorem no_control_clockTime (time : Int) :
    (Layout.clockTime time).toList.any isControl = false := by
  have hcolon : (":" : String).toList.any isControl = false := rfl
  have hnumber (n : Nat) : (toString n).toList.any isControl = false := by
    rw [Nat.toString_eq_ofList_toDigits, String.toList_ofList, List.any_eq_false]
    intro c hc
    rw [isControl_of_isDigit (Nat.isDigit_of_mem_toDigits (by decide) (by decide) hc)]
    exact Bool.false_ne_true
  have htwo (n : Nat) : (Layout.twoDigits n).toList.any isControl = false := by
    rw [Layout.twoDigits]
    split
    · rw [String.toList_append, List.any_append, hnumber]
      rfl
    · exact hnumber n
  simp only [Layout.clockTime, String.toList_append, List.any_append, htwo, hcolon, Bool.or_false]

theorem showable_tag {name : String} (h : Showable name.toList) : Showable (tag name).toList := by
  have htext : Showable ("[" ++ name ++ "]").toList := by
    rw [String.toList_append, String.toList_append]
    exact ((showable_of_no_control (by decide)).append h).append
      (showable_of_no_control (by decide))
  have hbold (style : Colour.Style) :
      Showable (Colour.paintBold style ("[" ++ name ++ "]")).toList :=
    (htext.paint style).paint .bold
  rw [tag]
  split
  · exact hbold .brightBlue
  · exact hbold .brightGreen
  · exact hbold .brightRed
  · exact hbold .brightMagenta
  · exact htext.paint .dimmed
  · exact hbold .brightYellow

theorem showable_statusFront (time : Int) (mark : Mark) :
    Showable (statusFront time mark).toList := by
  have hblank : Showable (" " : String).toList := showable_of_no_control (by decide)
  have hclock : Showable ("[" ++ Layout.clockTime time ++ "]").toList := by
    apply showable_of_no_control
    rw [String.toList_append, String.toList_append, List.any_append, List.any_append,
      no_control_clockTime]
    rfl
  have hmark : Showable mark.text.toList := by
    have hpainted (style : Colour.Style) {text : String}
        (htext : text.toList.any isControl = false) :
        Showable (Colour.paint style text ++ " ").toList := by
      rw [String.toList_append]
      exact ((showable_of_no_control htext).paint style).append hblank
    cases mark with
    | busy => exact hpainted .dimmed (by decide)
    | good => exact hpainted .green (by decide)
    | doubtful => exact hpainted .yellow (by decide)
    | bad => exact hpainted .red (by decide)
    | quiet => exact showable_of_no_control (by decide)
  rw [statusFront, String.toList_append, String.toList_append]
  exact ((hclock.paint .dimmed).append hblank).append hmark

theorem count_newline_paint (style : Colour.Style) (text : String) :
    (Colour.paint style text).toList.count '\n' = text.toList.count '\n' := by
  have hon : (Colour.sequence style.on "m").toList.count '\n' = 0 := by cases style <;> decide
  have hoff : (Colour.sequence style.off "m").toList.count '\n' = 0 := by cases style <;> decide
  simp only [Colour.paint, String.toList_append, List.count_append, hon, hoff, Nat.zero_add,
    Nat.add_zero]

theorem count_newline_statusFront (time : Int) (mark : Mark) :
    (statusFront time mark).toList.count '\n' = 0 := by
  have hclock : (Layout.clockTime time).toList.count '\n' = 0 :=
    List.count_eq_zero.mpr fun hmem =>
      absurd rfl (List.any_eq_false.mp (no_control_clockTime time) _ hmem)
  have hmark : mark.text.toList.count '\n' = 0 := by cases mark <;> decide
  simp only [statusFront, String.toList_append, List.count_append, count_newline_paint, hclock,
    hmark]
  rfl

theorem Call.Presentable.showable (h : c.Presentable) (htext : c.text? verbose = some text) :
    Showable text.toList := by
  have hline {name message : String} (hname : Showable name.toList)
      (hmessage : Showable message.toList) : Showable (tag name ++ " " ++ message).toList := by
    rw [String.toList_append, String.toList_append]
    exact ((showable_tag hname).append (showable_of_no_control (by decide))).append hmessage
  cases c with
  | status time report =>
    obtain rfl := Option.some.inj htext
    rw [String.toList_append]
    exact (showable_statusFront time report.mark).append h.1
  | log name message =>
    obtain rfl := Option.some.inj htext
    exact hline h.1 h.2
  | entry d =>
    obtain rfl := Option.some.inj htext
    refine hline ?_ h
    cases d.severity <;> exact showable_of_no_control (by decide)
  | debug name message =>
    rw [text?] at htext
    split at htext
    · obtain rfl := Option.some.inj htext
      exact hline h.1 h.2
    · cases htext

/-! ### One call -/

theorem Call.map_text_rows (h : c.text? verbose = some text) :
    (c.rows verbose).map Row.text = linesOf text.toList := by
  simp [rows, h, Function.comp_def]

/-- What belongs to the log is printed as its text, and leaves the block as it is. -/
theorem Call.print_of_log (h : c.printer = .log) : c.print verbose b =
    ((c.text? verbose).elim "" fun text => Colour.sequence "" "K" ++ (text ++ "\n"), b) := by
  cases c with
  | status => cases h
  | log name message => simp [print, text?, logLine, String.append_assoc]
  | entry d => simp [print, text?, diagnosticLine, logLine, String.append_assoc]
  | debug name message =>
    cases verbose
    · rfl
    · simp [print, text?, debugLine, logLine, String.append_assoc]

/-- A report is printed as its text, behind what clears the last block. -/
theorem Call.print_status (time : Int) (report : StatusReport) :
    (Call.status time report).print verbose b =
      (b.clearing ++ ((statusFront time report.mark ++ report.message) ++ "\n"),
        ⟨StatusBlock.lineCount report.message⟩) := by
  simp [print, StatusBlock.display, statusFront, String.append_assoc]

theorem feed_text (h : Showable text.toList) (rows : List (List Char)) :
    Emulator.feed ⟨.under rows, .text⟩ (text ++ "\n").toList =
      ⟨.under (rows ++ linesOf text.toList), .text⟩ := by
  have hbreak : ("\n" : String).toList = ['\n'] := rfl
  rw [String.toList_append, hbreak, feed_line h]

/-- As many rows are cleared as the last block has lines. -/
theorem feed_block_clearing (hlines : b.lines < 65536) (rows : List (List Char)) :
    Emulator.feed ⟨.under rows, .text⟩ b.clearing.toList =
      ⟨.under (rows.rdrop b.lines), .text⟩ := by
  rw [StatusBlock.clearing]
  split
  · next hzero =>
    rw [hzero, List.rdrop_zero]
    rfl
  · next hpos =>
    rw [Nat.mod_eq_of_lt hlines]
    exact feed_clearing (Nat.pos_of_ne_zero hpos) rows

/-- A block remembers how many rows it has. -/
theorem length_status_rows (time : Int) (report : StatusReport) :
    ((Call.status time report).rows verbose).length = StatusBlock.lineCount report.message := by
  simp [Call.rows, Call.text?, length_linesOf, count_newline_statusFront, StatusBlock.lineCount]

/-- The screen goes along with the board, and the block with its rows. -/
theorem feed_print (verbose : Bool) (h : c.Presentable) {board : Board} (hlines : b.lines < 65536)
    (hblock : b.lines = board.block) :
    Emulator.feed ⟨.under (board.rows.map Row.text), .text⟩ (c.print verbose b).1.toList =
        ⟨.under ((board.take verbose c).rows.map Row.text), .text⟩ ∧
      (c.print verbose b).2.lines < 65536 ∧
      (c.print verbose b).2.lines = (board.take verbose c).block := by
  cases hprinter : c.printer with
  | log =>
    rw [Call.print_of_log hprinter, Board.take, hprinter]
    refine ⟨?_, hlines, hblock⟩
    cases htext : c.text? verbose with
    | none => simp [Call.rows, htext, Emulator.feed]
    | some text =>
      rw [List.map_append, Call.map_text_rows htext, Option.elim_some, String.toList_append,
        feed_append, feed_clearRow, feed_text (h.showable htext)]
  | status =>
    cases c with
    | status time report =>
      have htext : (Call.status time report).text? verbose =
          some (statusFront time report.mark ++ report.message) := rfl
      rw [Call.print_status, Board.take, hprinter]
      refine ⟨?_, h.2, (length_status_rows time report).symm⟩
      rw [List.map_append, Call.map_text_rows htext, String.toList_append, feed_append,
        feed_block_clearing hlines, feed_text (h.showable htext), hblock, List.rdrop, List.rdrop,
        List.map_take, List.length_map]
    | log | entry | debug => cases hprinter

/-- The terminal shows the board. -/
theorem feed_printed (verbose : Bool) (hcalls : ∀ c ∈ calls, c.Presentable) {board : Board}
    (hlines : b.lines < 65536) (hblock : b.lines = board.block) :
    Emulator.feed ⟨.under (board.rows.map Row.text), .text⟩ (printed verbose b calls).toList =
      ⟨.under ((calls.foldl (Board.take verbose) board).rows.map Row.text), .text⟩ := by
  induction calls generalizing b board with
  | nil => rfl
  | cons c calls ih =>
    obtain ⟨hc, hrest⟩ := List.forall_mem_cons.mp hcalls
    obtain ⟨hfeed, hlines', hblock'⟩ := feed_print verbose hc hlines hblock
    rw [printed, String.toList_append, feed_append, hfeed]
    exact ih hrest hlines' hblock'

/-! ### What stays on the board -/

/-- A call that prints a line of the log. -/
def Call.IsLine (verbose : Bool) (c : Call) : Prop :=
  c.printer = .log ∧ c.rows verbose ≠ []

/-- A line of the log is printed after a status block. -/
def Follows (verbose : Bool) (calls : List Call) : Prop :=
  ∃ s l, [s, l].Sublist calls ∧ s.printer = .status ∧ l.IsLine verbose

/-- A line of the log is printed between two status blocks. -/
def Interrupts (verbose : Bool) (calls : List Call) : Prop :=
  ∃ s l s', [s, l, s'].Sublist calls ∧ s.printer = .status ∧ l.IsLine verbose ∧
    s'.printer = .status

/-- The rows of the log, in their order. -/
def logRows (verbose : Bool) (calls : List Call) : List Row :=
  (calls.filter (·.printer = .log)).flatMap (Call.rows verbose)

/-- The rows of the last status block, if there is one. -/
def blockRows (verbose : Bool) (calls : List Call) : List Row :=
  (calls.filter (·.printer = .status)).getLast?.elim [] (Call.rows verbose)

/-- Some rows are all those of the log, in their order, and at one place among them the last status
block as a whole. -/
def Complete (verbose : Bool) (calls : List Call) (rows : List Row) : Prop :=
  ∃ front back, rows = front ++ blockRows verbose calls ++ back ∧
    front ++ back = logRows verbose calls

theorem Call.printer_of_mem_rows {row : Row} (h : row ∈ c.rows verbose) :
    row.printer = c.printer := by
  obtain ⟨text, -, hmem⟩ := List.mem_flatMap.mp h
  obtain ⟨line, -, rfl⟩ := List.mem_map.mp hmem
  rfl

/-- A status block has a row at least. -/
theorem Call.rows_ne_nil (h : c.printer = .status) : c.rows verbose ≠ [] := by
  cases c with
  | status time report =>
    rw [← List.length_pos_iff, length_status_rows]
    exact Nat.succ_pos _
  | log | entry | debug => cases h

theorem concat_sublist_concat_iff {α : Type} (front xs : List α) {a b : α} :
    (front ++ [a]).Sublist (xs ++ [b]) ↔ (front ++ [a]).Sublist xs ∨ a = b ∧ front.Sublist xs := by
  rw [← List.reverse_sublist, List.reverse_append, List.reverse_append, List.reverse_singleton,
    List.reverse_singleton, List.singleton_append, List.singleton_append, List.cons_sublist_cons',
    List.reverse_sublist, ← List.reverse_sublist, List.reverse_cons, List.reverse_reverse,
    List.reverse_reverse]

theorem follows_concat : Follows verbose (calls ++ [c]) ↔ Follows verbose calls ∨
    (∃ s ∈ calls, s.printer = .status) ∧ c.IsLine verbose := by
  have hsplit (s l : Call) : [s, l].Sublist (calls ++ [c]) ↔
      [s, l].Sublist calls ∨ l = c ∧ s ∈ calls := by
    rw [← List.singleton_sublist]
    exact concat_sublist_concat_iff [s] calls
  constructor
  · rintro ⟨s, l, hsub, hs, hl⟩
    rcases (hsplit s l).mp hsub with hsub | ⟨rfl, hmem⟩
    · exact .inl ⟨s, l, hsub, hs, hl⟩
    · exact .inr ⟨⟨s, hmem, hs⟩, hl⟩
  · rintro (⟨s, l, hsub, hs, hl⟩ | ⟨⟨s, hmem, hs⟩, hl⟩)
    · exact ⟨s, l, (hsplit s l).mpr (.inl hsub), hs, hl⟩
    · exact ⟨s, c, (hsplit s c).mpr (.inr ⟨rfl, hmem⟩), hs, hl⟩

theorem interrupts_concat : Interrupts verbose (calls ++ [c]) ↔ Interrupts verbose calls ∨
    Follows verbose calls ∧ c.printer = .status := by
  have hsplit (s l s' : Call) : [s, l, s'].Sublist (calls ++ [c]) ↔
      [s, l, s'].Sublist calls ∨ s' = c ∧ [s, l].Sublist calls :=
    concat_sublist_concat_iff [s, l] calls
  constructor
  · rintro ⟨s, l, s', hsub, hs, hl, hs'⟩
    rcases (hsplit s l s').mp hsub with hsub | ⟨rfl, hfront⟩
    · exact .inl ⟨s, l, s', hsub, hs, hl, hs'⟩
    · exact .inr ⟨⟨s, l, hfront, hs, hl⟩, hs'⟩
  · rintro (⟨s, l, s', hsub, hs, hl, hs'⟩ | ⟨⟨s, l, hsub, hs, hl⟩, hc⟩)
    · exact ⟨s, l, s', (hsplit s l s').mpr (.inl hsub), hs, hl, hs'⟩
    · exact ⟨s, l, c, (hsplit s l c).mpr (.inr ⟨rfl, hsub⟩), hs, hl, hc⟩

theorem Follows.exists_status (h : Follows verbose calls) : ∃ s ∈ calls, s.printer = .status := by
  obtain ⟨s, l, hsub, hs, -⟩ := h
  exact ⟨s, hsub.subset List.mem_cons_self, hs⟩

theorem Board.after_concat (verbose : Bool) (calls : List Call) (c : Call) :
    Board.after verbose (calls ++ [c]) = (Board.after verbose calls).take verbose c := by
  rw [after, List.foldl_append]
  rfl

theorem logRows_concat (verbose : Bool) (calls : List Call) (c : Call) :
    logRows verbose (calls ++ [c]) =
      logRows verbose calls ++ if c.printer = .log then c.rows verbose else [] := by
  rw [logRows, List.filter_append, List.flatMap_append, logRows]
  split <;> simp [*]

theorem blockRows_concat (verbose : Bool) (calls : List Call) (c : Call) :
    blockRows verbose (calls ++ [c]) =
      if c.printer = .status then c.rows verbose else blockRows verbose calls := by
  rw [blockRows, List.filter_append, blockRows]
  split <;> simp [*]

theorem blockRows_ne_nil_iff :
    blockRows verbose calls ≠ [] ↔ ∃ s ∈ calls, s.printer = .status := by
  induction calls using List.reverseRecOn with
  | nil => simp [blockRows]
  | append_singleton calls c ih =>
    rw [blockRows_concat]
    cases hprinter : c.printer with
    | log => simpa [hprinter, or_and_right, exists_or] using ih
    | status => simpa [hprinter, or_and_right, exists_or] using Call.rows_ne_nil hprinter

/-- The board knows how many rows the last block has. -/
theorem Board.block_after (verbose : Bool) (calls : List Call) :
    (Board.after verbose calls).block = (blockRows verbose calls).length := by
  induction calls using List.reverseRecOn with
  | nil => rfl
  | append_singleton calls c ih =>
    rw [after_concat, blockRows_concat, take]
    cases c.printer with
    | log => exact ih
    | status => rfl

/-- Where no line stood between two blocks, the board is complete. Lines stand behind the block if
some were printed after it. -/
theorem exists_around_block (h : ¬Interrupts verbose calls) : ∃ front back,
    (Board.after verbose calls).rows = front ++ blockRows verbose calls ++ back ∧
      front ++ back = logRows verbose calls ∧ (back ≠ [] ↔ Follows verbose calls) := by
  induction calls using List.reverseRecOn with
  | nil =>
    refine ⟨[], [], rfl, rfl, fun h => absurd rfl h, ?_⟩
    rintro ⟨s, l, hsub, -⟩
    cases hsub
  | append_singleton calls c ih =>
    rw [interrupts_concat, not_or] at h
    obtain ⟨hbefore, hstatus⟩ := h
    obtain ⟨front, back, hrows, hlog, hback⟩ := ih hbefore
    rw [Board.after_concat, logRows_concat, blockRows_concat, follows_concat, Board.take]
    cases hprinter : c.printer with
    | log =>
      have hline : c.IsLine verbose ↔ c.rows verbose ≠ [] := and_iff_right hprinter
      simp only [if_true, reduceCtorEq, if_false]
      -- before the first status block every row can count as one in front of it
      by_cases hs : ∃ s ∈ calls, s.printer = .status
      · refine ⟨front, back ++ c.rows verbose, ?_, ?_, ?_⟩
        · rw [hrows, List.append_assoc]
        · rw [← hlog, List.append_assoc]
        · rw [← hback, hline, and_iff_right hs, ne_eq, List.append_eq_nil_iff, not_and_or]
      · have hblock : blockRows verbose calls = [] :=
          not_not.mp (mt blockRows_ne_nil_iff.mp hs)
        refine ⟨front ++ back ++ c.rows verbose, [], ?_, ?_, ?_⟩
        · rw [hrows, hblock]
          simp
        · rw [hlog, List.append_nil]
        · have hsilent : ¬Follows verbose calls := fun h => hs h.exists_status
          simp [hsilent, hs]
    | status =>
      have hnone : back = [] := by
        by_contra hne
        exact hstatus ⟨hback.mp hne, hprinter⟩
      subst hnone
      have hnotLine : ¬c.IsLine verbose := fun hline => by
        rw [hline.1] at hprinter
        cases hprinter
      refine ⟨front, [], ?_, ?_, ?_⟩
      · rw [hrows, Board.block_after, List.append_nil, List.rdrop_append_length, List.append_nil]
        rfl
      · simpa using hlog
      · simp [← hback, hnotLine]

/-- The rows of the log among some rows. -/
def logCount (rows : List Row) : Nat :=
  rows.countP (·.printer = .log)

theorem logCount_append (rows rows' : List Row) :
    logCount (rows ++ rows') = logCount rows + logCount rows' :=
  List.countP_append

theorem logCount_of_printer {rows : List Row} {printer : Printer}
    (h : ∀ row ∈ rows, row.printer = printer) :
    logCount rows = if printer = .log then rows.length else 0 := by
  split
  · next hlog => exact List.countP_eq_length.mpr fun row hrow => by simp [h row hrow, hlog]
  · next hother => exact List.countP_eq_zero.mpr fun row hrow => by simp [h row hrow, hother]

theorem printer_of_mem_logRows {row : Row} (h : row ∈ logRows verbose calls) :
    row.printer = .log := by
  obtain ⟨c, hc, hrow⟩ := List.mem_flatMap.mp h
  rw [Call.printer_of_mem_rows hrow]
  simpa using (List.mem_filter.mp hc).2

theorem printer_of_mem_blockRows {row : Row} (h : row ∈ blockRows verbose calls) :
    row.printer = .status := by
  rw [blockRows] at h
  cases hlast : (calls.filter (·.printer = .status)).getLast? with
  | none => simp [hlast] at h
  | some c =>
    rw [hlast] at h
    rw [Call.printer_of_mem_rows h]
    simpa using (List.mem_filter.mp (List.mem_of_getLast? hlast)).2

theorem logCount_blockRows (verbose : Bool) (calls : List Call) :
    logCount (blockRows verbose calls) = 0 :=
  logCount_of_printer fun _ => printer_of_mem_blockRows

theorem logCount_logRows (verbose : Bool) (calls : List Call) :
    logCount (logRows verbose calls) = (logRows verbose calls).length :=
  logCount_of_printer fun _ => printer_of_mem_logRows

/-- A complete board has all rows of the log. -/
theorem Complete.logCount_eq {rows : List Row} (h : Complete verbose calls rows) :
    logCount rows = (logRows verbose calls).length := by
  obtain ⟨front, back, rfl, hlog⟩ := h
  rw [← logCount_logRows, ← hlog]
  simp only [logCount_append, logCount_blockRows, Nat.add_zero]

/-- Rows that are taken away from the end are not rows of the log, or these become fewer. -/
theorem logCount_rdrop_le (rows : List Row) (n : Nat) : logCount (rows.rdrop n) ≤ logCount rows :=
  (List.take_sublist _ _).countP_le

theorem logCount_rdrop_lt {rows : List Row} {row : Row} {n : Nat} (hn : 0 < n)
    (hrow : row.printer = .log) :
    logCount ((rows ++ [row]).rdrop n) < logCount (rows ++ [row]) := by
  obtain ⟨n, rfl⟩ := Nat.exists_eq_succ_of_ne_zero hn.ne'
  have hone : logCount [row] = 1 := by simp [logCount, hrow]
  have hle := logCount_rdrop_le rows n
  rw [List.rdrop_concat_succ, logCount_append, hone]
  omega

/-- A block that is printed over lines of the log takes the last of them away, and no later call
brings it back. -/
theorem logCount_after (verbose : Bool) (calls : List Call) :
    logCount (Board.after verbose calls).rows ≤ (logRows verbose calls).length ∧
      (Interrupts verbose calls →
        logCount (Board.after verbose calls).rows < (logRows verbose calls).length) := by
  induction calls using List.reverseRecOn with
  | nil =>
    refine ⟨Nat.le_refl 0, ?_⟩
    rintro ⟨s, l, s', hsub, -⟩
    cases hsub
  | append_singleton calls c ih =>
    obtain ⟨hle, hlt⟩ := ih
    have hrows : logCount (c.rows verbose) =
        if c.printer = .log then (c.rows verbose).length else 0 :=
      logCount_of_printer fun _ => Call.printer_of_mem_rows
    rw [Board.after_concat, logRows_concat, interrupts_concat, Board.take]
    cases hprinter : c.printer with
    | log =>
      simp only [hprinter, if_true] at hrows
      simp only [logCount_append, hrows, if_true, List.length_append, reduceCtorEq, and_false,
        or_false]
      exact ⟨by omega, fun h => by have := hlt h; omega⟩
    | status =>
      simp only [hprinter, reduceCtorEq, if_false] at hrows
      simp only [logCount_append, hrows, reduceCtorEq, if_false, List.append_nil, Nat.add_zero,
        and_true]
      have hdrop := logCount_rdrop_le (Board.after verbose calls).rows
        (Board.after verbose calls).block
      refine ⟨hdrop.trans hle, fun h => ?_⟩
      by_cases hbefore : Interrupts verbose calls
      · exact hdrop.trans_lt (hlt hbefore)
      -- the first block that goes over a line takes its row away, as it is the last on the board
      · have hfollows := h.resolve_left hbefore
        obtain ⟨front, back, hboard, hlog, hback⟩ := exists_around_block hbefore
        obtain ⟨lines, row, rfl⟩ : ∃ lines row, back = lines ++ [row] :=
          ⟨_, _, (List.dropLast_concat_getLast (hback.mpr hfollows)).symm⟩
        have hrow : row.printer = .log := by
          apply printer_of_mem_logRows
          rw [← hlog]
          simp
        have hblock : 0 < (Board.after verbose calls).block := by
          rw [Board.block_after, List.length_pos_iff, blockRows_ne_nil_iff]
          exact hfollows.exists_status
        rw [hboard, ← List.append_assoc] at hle ⊢
        exact (logCount_rdrop_lt hblock hrow).trans_le hle

/-- The board is complete if and only if no line of the log stood between two status blocks. -/
theorem complete_iff : Complete verbose calls (Board.after verbose calls).rows ↔
    ¬Interrupts verbose calls := by
  constructor
  · intro hcomplete hinterrupts
    have hlt := (logCount_after verbose calls).2 hinterrupts
    rw [hcomplete.logCount_eq] at hlt
    exact Nat.lt_irrefl _ hlt
  · intro h
    obtain ⟨front, back, hrows, hlog, -⟩ := exists_around_block h
    exact ⟨front, back, hrows, hlog⟩

/-- **What the status block replaces.** Whatever is printed with texts that can be shown, on a
terminal with room for everything, the screen shows the board: every call adds its rows at the end,
and a status block first takes away as many rows from the end as the last one had. Nothing else is
on the screen, and the cursor is below.

So the screen holds every line of the log, in order, and the last status block as a whole, and
nothing else, if and only if no line of the log was printed between two status blocks. Such a line
is taken away by the second block, in the place of a line of the first. -/
theorem screen_complete_iff (verbose : Bool) (hcalls : ∀ c ∈ calls, c.Presentable) :
    replay (printed verbose {} calls) =
        .under ((Board.after verbose calls).rows.map Row.text) ∧
      (Complete verbose calls (Board.after verbose calls).rows ↔ ¬Interrupts verbose calls) := by
  refine ⟨?_, complete_iff⟩
  have hfeed : Emulator.feed {} (printed verbose {} calls).toList =
      ⟨.under ((Board.after verbose calls).rows.map Row.text), .text⟩ :=
    feed_printed verbose hcalls (by decide : ({} : StatusBlock).lines < 65536)
      (rfl : _ = ({} : Board).block)
  exact congrArg Emulator.screen hfeed

/-- A report, a line of the log and another report. -/
private def reloading : List Call :=
  [.status 0 (.error "failed" "line 5"), .log "watch" "reloaded", .status 1 (.success "rendered")]

private theorem presentable_reloading : ∀ c ∈ reloading, c.Presentable := by
  decide +kernel

/-- The line of the log is gone, and the first line of the first report is still there. -/
theorem reload_line_lost :
    replay (printed false {} reloading) = .under
      ["[00:00:00] ✗ failed".toList, "[00:00:01] ✓ rendered".toList] ∧
    ¬Complete false reloading (Board.after false reloading).rows := by
  obtain ⟨hscreen, hcomplete⟩ := screen_complete_iff false presentable_reloading
  refine ⟨?_, ?_⟩
  · rw [hscreen]
    decide +kernel
  · rw [hcomplete, not_not]
    have hline : (Call.log "watch" "reloaded").IsLine false := ⟨rfl, by decide +kernel⟩
    exact ⟨_, _, _, List.Sublist.refl reloading, rfl, hline, rfl⟩

/-- Not every line of the log stays on the screen. -/
theorem not_every_line_stays :
    ¬ ∀ (verbose : Bool) (calls : List Call), (∀ c ∈ calls, c.Presentable) →
      ∀ c ∈ calls, c.printer = .log → ∀ row ∈ c.rows verbose,
        row.text ∈ (replay (printed verbose {} calls)).above := by
  intro hall
  have hstays := hall false reloading presentable_reloading (.log "watch" "reloaded")
    (by decide) rfl ⟨.log, "[watch] reloaded".toList⟩ (by decide +kernel)
  revert hstays
  decide +kernel

end SongPreview.Terminal
