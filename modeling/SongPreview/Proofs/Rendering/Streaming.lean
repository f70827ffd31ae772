import SongPreview.Proofs.Diagnostic.Stripping
import SongPreview.Proofs.Rendering.Outcomes

/-!
# From the error output to the log

The error output of a renderer arrives in pieces that end anywhere, inside a character, a
colour code or a line. What is read of it depends on the bytes alone: it is the whole text,
decoded at once and split into lines, with one diagnostic for every line that is not blank.
A line can be decoded by itself, since no ill-formed sequence reaches beyond a line break. The
listeners of a rendering hear the same diagnostics in the same order.
-/

namespace SongPreview

/-- The bytes of a byte string, as its list view gives them. -/
theorem toList_eq_data (bytes : ByteArray) : bytes.toList = bytes.data.toList := by
  have hloop (i : Nat) (seen : List UInt8) :
      ByteArray.toList.loop bytes i seen = seen.reverse ++ bytes.data.toList.drop i := by
    fun_induction ByteArray.toList.loop bytes i seen with
    | case1 i seen hi ih =>
      have hdrop : bytes.data.toList.drop i = bytes.get! i :: bytes.data.toList.drop (i + 1) := by
        rw [List.drop_eq_getElem_cons (by rwa [Array.length_toList])]
        congr 1
        exact (getElem!_pos bytes.data i hi).symm
      rw [ih, hdrop, List.reverse_cons, List.append_assoc, List.singleton_append]
    | case2 i seen hend =>
      have hdrop : bytes.data.toList.drop i = [] := by
        rw [List.drop_eq_nil_iff, Array.length_toList]
        exact Nat.not_lt.mp hend
      rw [hdrop, List.append_nil]
  exact hloop 0 []

theorem toList_append (a b : ByteArray) : (a ++ b).toList = a.toList ++ b.toList := by
  simp only [toList_eq_data, ByteArray.toList_data_append]

namespace Utf8

variable {s rest : List UInt8} {b : UInt8} {n : Nat} {low high : UInt8} {bits v : Nat} {lead : Lead}

/-! ### Decoding by lines -/

theorem decodeOnto_eq (out : List Char) (s : List UInt8) :
    decodeOnto out s = out.reverse ++ decode s := by
  induction hn : s.length using Nat.strong_induction_on generalizing out s with
  | _ n ih =>
    subst hn
    cases s with
    | nil => simp [decode, decodeOnto]
    | cons b rest =>
      have hlt : (next b rest).2.length < (b :: rest).length :=
        Nat.lt_succ_of_le (length_next_le b rest)
      rw [decode, decodeOnto, decodeOnto, ih _ hlt _ _ rfl, ih _ hlt [_] _ rfl]
      simp

@[simp] theorem decode_nil : decode [] = [] := by
  rw [decode, decodeOnto]
  rfl

theorem decode_cons (b : UInt8) (rest : List UInt8) :
    decode (b :: rest) = (next b rest).1.getD replacement :: decode (next b rest).2 := by
  rw [decode, decodeOnto, decodeOnto_eq]
  rfl

theorem ten_lt_low (h : Lead.ofByte? b = some lead) : 10 < lead.low := by
  unfold Lead.ofByte? at h
  split_ifs at h <;> obtain rfl := Option.some.inj h <;> dsimp only <;> decide

/-- A line break is no byte that follows a lead byte. -/
theorem continuation_append (hlow : 10 < low) (s t : List UInt8) :
    continuation n low high bits (s ++ 10 :: t) =
      ((continuation n low high bits s).1, (continuation n low high bits s).2 ++ 10 :: t) := by
  induction n generalizing low bits s high with
  | zero => rfl
  | succ n ih =>
    cases s with
    | nil =>
      have hnot : (decide (low ≤ 10) && decide (10 ≤ high)) = false := by
        rw [decide_eq_false (UInt8.not_le.mpr hlow), Bool.false_and]
      simp [continuation, hnot]
    | cons b s =>
      simp only [List.cons_append, continuation]
      split
      · exact ih (by decide) s
      · rfl

theorem next_append (b : UInt8) (rest t : List UInt8) :
    next b (rest ++ 10 :: t) = ((next b rest).1, (next b rest).2 ++ 10 :: t) := by
  unfold next
  split
  · rfl
  · cases hlead : Lead.ofByte? b with
    | none => rfl
    | some lead => simp only [continuation_append (ten_lt_low hlead)]

/-- The text before a line break and the text after it are decoded apart. -/
theorem decode_append (s t : List UInt8) :
    decode (s ++ 10 :: t) = decode s ++ '\n' :: decode t := by
  induction hn : s.length using Nat.strong_induction_on generalizing s with
  | _ n ih =>
    subst hn
    cases s with
    | nil =>
      rw [List.nil_append, decode_cons, decode_nil]
      rfl
    | cons b rest =>
      have hlt : (next b rest).2.length < (b :: rest).length :=
        Nat.lt_succ_of_le (length_next_le b rest)
      rw [List.cons_append, decode_cons, next_append, ih _ hlt _ rfl, decode_cons, List.cons_append]

theorem continuation_suffix (n : Nat) (low high : UInt8) (bits : Nat) (s : List UInt8) :
    (continuation n low high bits s).2 <:+ s := by
  induction n generalizing low high bits s with
  | zero => exact List.suffix_refl s
  | succ n ih =>
    cases s with
    | nil => exact List.suffix_refl _
    | cons b s =>
      simp only [continuation]
      split
      · exact (ih _ _ _ s).trans (List.suffix_cons b s)
      · exact List.suffix_refl _

theorem next_suffix (b : UInt8) (rest : List UInt8) : (next b rest).2 <:+ rest := by
  unfold next
  split
  · exact List.suffix_refl rest
  · cases Lead.ofByte? b with
    | none => exact List.suffix_refl rest
    | some lead => exact continuation_suffix _ _ _ _ rest

theorem le_continuation (h : (continuation n low high bits s).1 = some v) : bits * 64 ^ n ≤ v := by
  induction n generalizing low high bits s with
  | zero =>
    obtain rfl := Option.some.inj h
    exact Nat.le_of_eq (by simp)
  | succ n ih =>
    cases s with
    | nil => cases h
    | cons b s =>
      simp only [continuation] at h
      split at h
      · refine Nat.le_trans ?_ (ih h)
        rw [Nat.pow_succ', ← Nat.mul_assoc]
        exact Nat.mul_le_mul_right _ (Nat.le_add_right _ _)
      · cases h

/-- A first byte after the lead that is not the least one possible makes up for a lead without
bits of its own. -/
theorem le_continuation_succ (hlow : 0x90 ≤ low)
    (h : (continuation (n + 1) low high 0 s).1 = some v) : 16 * 64 ^ n ≤ v := by
  cases s with
  | nil => cases h
  | cons b s =>
    simp only [continuation, Nat.zero_mul, Nat.zero_add] at h
    split at h
    · next hrange =>
      rw [Bool.and_eq_true, decide_eq_true_eq] at hrange
      have hb : 0x90 ≤ b.toNat := UInt8.le_iff_toNat_le.mp (UInt8.le_trans hlow hrange.1)
      exact Nat.le_trans (Nat.mul_le_mul_right _ (by omega)) (le_continuation h)
    · cases h

/-- A longer sequence never stands for a line break. -/
theorem ten_lt_of_lead (hlead : Lead.ofByte? b = some lead)
    (h : (continuation lead.following lead.low lead.high lead.bits s).1 = some v) : 10 < v := by
  have hle {k : UInt8} (hk : k ≤ b) : k.toNat ≤ b.toNat := UInt8.le_iff_toNat_le.mp hk
  -- the lead brings bits of its own, or the range of the byte behind it keeps short forms out
  unfold Lead.ofByte? at hlead
  simp only [Bool.and_eq_true, decide_eq_true_eq] at hlead
  split_ifs at hlead with htwo hE0 hED hthree hF0 hfour hF4 <;> obtain rfl := Option.some.inj hlead
  · have hbits := hle htwo.1
    have := le_continuation h
    simp only [UInt8.toNat_ofNat] at hbits this
    omega
  · have := le_continuation_succ (by decide) h
    omega
  · have := le_continuation h
    dsimp only at this
    omega
  · have hbits := hle hthree.1
    have := le_continuation h
    simp only [UInt8.toNat_ofNat] at hbits this
    omega
  · have := le_continuation_succ (by decide) h
    omega
  · have hbits := hle hfour.1
    have := le_continuation h
    simp only [UInt8.toNat_ofNat] at hbits this
    omega
  · have := le_continuation h
    dsimp only at this
    omega

theorem ofNat_ne_newline {k : Nat} (h : k ≠ 10) : Char.ofNat k ≠ '\n' := by
  intro heq
  by_cases hvalid : k.isValidChar
  · rw [Char.ofNat, dif_pos hvalid] at heq
    exact h (congrArg Char.toNat heq)
  · rw [Char.ofNat, dif_neg hvalid] at heq
    exact absurd heq (by decide)

/-- Only the byte of a line break is read as one. -/
theorem next_ne_newline (hb : b ≠ 10) : (next b rest).1.getD replacement ≠ '\n' := by
  unfold next
  split
  · refine ofNat_ne_newline fun h => hb ?_
    exact UInt8.toNat.inj h
  · cases hlead : Lead.ofByte? b with
    | none =>
      dsimp only
      decide
    | some lead =>
      dsimp only
      cases hvalue : (continuation lead.following lead.low lead.high lead.bits rest).1 with
      | none => decide
      | some v => exact ofNat_ne_newline (Nat.ne_of_gt (ten_lt_of_lead hlead hvalue))

theorem newline_not_mem_decode (h : 10 ∉ s) : '\n' ∉ decode s := by
  induction hn : s.length using Nat.strong_induction_on generalizing s with
  | _ n ih =>
    subst hn
    cases s with
    | nil => simp
    | cons b rest =>
      obtain ⟨hb, hrest⟩ := List.ne_and_not_mem_of_not_mem_cons h
      have hlt : (next b rest).2.length < (b :: rest).length :=
        Nat.lt_succ_of_le (length_next_le b rest)
      rw [decode_cons, List.mem_cons, not_or]
      exact ⟨(next_ne_newline hb.symm).symm,
        ih _ hlt (fun hmem => hrest ((next_suffix b rest).subset hmem)) rfl⟩

/-- Decoding line by line gives the lines of the whole text. -/
theorem decode_splitOn (s : List UInt8) : (decode s).splitOn '\n' = (s.splitOn 10).map decode := by
  induction hn : s.length using Nat.strong_induction_on generalizing s with
  | _ n ih =>
    subst hn
    by_cases hbreak : 10 ∈ s
    · obtain ⟨before, after, rfl⟩ := List.append_of_mem hbreak
      have hbefore : before.length < (before ++ 10 :: after).length := by simp
      have hafter : after.length < (before ++ 10 :: after).length := by
        simp only [List.length_append, List.length_cons]
        omega
      rw [decode_append, List.splitOn_append_cons_self, List.splitOn_append_cons_self,
        List.map_append, ih _ hbefore before rfl, ih _ hafter after rfl]
    · rw [List.splitOn_eq_singleton (newline_not_mem_decode hbreak),
        List.splitOn_eq_singleton hbreak, List.map_singleton]

end Utf8

/-- The bytes of some pieces are those of the first and of the others. -/
theorem Course.toList_joined_cons (c : Chunk) (chunks : List Chunk) :
    (joined (c :: chunks)).toList = c.bytes.toList ++ (joined chunks).toList := by
  have hjoined (bytes : ByteArray) (chunks : List Chunk) :
      (chunks.foldl (fun all c => all ++ c.bytes) bytes).toList =
        bytes.toList ++ (joined chunks).toList := by
    induction chunks generalizing bytes with
    | nil => simp [joined]
    | cons c chunks ih =>
      have hfirst : (joined (c :: chunks)).toList = c.bytes.toList ++ (joined chunks).toList := by
        rw [joined, List.foldl_cons, ih, toList_append, ByteArray.toList_empty, List.nil_append]
      rw [List.foldl_cons, ih, toList_append, hfirst, List.append_assoc]
  rw [joined, List.foldl_cons, hjoined, toList_append, ByteArray.toList_empty, List.nil_append]

namespace Diagnostic

/-- A line is read as without the line break at its end. -/
theorem ofLine_append_newline (source : String) (line : List Char) (time : Int) :
    ofLine source (String.ofList (line ++ ['\n'])) time =
      ofLine source (String.ofList line) time := by
  have hstrip : Colour.strip (line ++ ['\n']) = Colour.strip line ++ ['\n'] := by
    have hlast : Colour.strip ['\n'] = ['\n'] :=
      Colour.plain_iff_strip_eq.mp (Colour.plain_of_not_mem (by decide))
    rw [Colour.strip_append_cons (by decide), hlast]
  have htrim : Text.trimRight (Colour.strip (line ++ ['\n'])) =
      Text.trimRight (Colour.strip line) := by
    rw [hstrip, Text.trimRight_append (List.all_eq_true.mp (by decide))]
  simp only [ofLine, String.toList_ofList, htrim]

end Diagnostic

namespace Rendering

variable {source : String} {time : Int} {config : Config.Renderer} {child : Child}
  {cancel : Option Nat}

/-- The lines of a text that are not blank. What follows the last line break is a line only once
the text has ended. -/
def wordedLines (ended : Bool) (text : List Char) : List (List Char) :=
  let lines := text.splitOn '\n'
  (if ended then lines else lines.dropLast).filter fun line => !line.all Text.isBlank

/-! ### Lines of bytes -/

/-- The diagnostic of a line of text, or nothing if it is blank. -/
def textDiagnostic (source : String) (time : Int) (line : List Char) : Option Diagnostic :=
  if line.all Text.isBlank then none else some (.ofLine source (String.ofList line) time)

theorem lineDiagnostic_eq (source : String) (time : Int) (line : List UInt8) :
    lineDiagnostic source time line = textDiagnostic source time (Utf8.decode line) := by
  simp only [lineDiagnostic, textDiagnostic, Text.isBlankString, String.toList_ofList]

/-- The line break at the end of a line makes no difference. -/
theorem lineDiagnostic_append (source : String) (time : Int) (line : List UInt8) :
    lineDiagnostic source time (line ++ [10]) = lineDiagnostic source time line := by
  have hdecode : Utf8.decode (line ++ [10]) = Utf8.decode line ++ ['\n'] := by
    rw [Utf8.decode_append, Utf8.decode_nil]
  have hblank : (Utf8.decode line ++ ['\n']).all Text.isBlank =
      (Utf8.decode line).all Text.isBlank := by
    rw [List.all_append, show ['\n'].all Text.isBlank = true by decide, Bool.and_true]
  rw [lineDiagnostic_eq, lineDiagnostic_eq, hdecode, textDiagnostic, textDiagnostic, hblank,
    Diagnostic.ofLine_append_newline]

theorem lineDiagnostic_nil (source : String) (time : Int) :
    lineDiagnostic source time [] = none := by
  rw [lineDiagnostic_eq, Utf8.decode_nil]
  rfl

theorem filterMap_textDiagnostic (source : String) (time : Int) (lines : List (List Char)) :
    lines.filterMap (textDiagnostic source time) =
      (lines.filter fun line => !line.all Text.isBlank).map fun line =>
        .ofLine source (String.ofList line) time := by
  induction lines with
  | nil => rfl
  | cons line lines ih =>
    cases hblank : line.all Text.isBlank with
    | true => simp [textDiagnostic, hblank, ih]
    | false => simp [textDiagnostic, hblank, ih]

namespace LogReader

variable {r : LogReader}

/-- What is found in some bytes depends on the lines that they make with what was left before:
each line that is complete is one diagnostic, unless it is blank, and the last one is left. -/
theorem feed_eq (source : String) (time : Int) (r : LogReader) (bytes : List UInt8)
    (hleft : 10 ∉ r.partialLine.reverse) :
    (r.feed source time bytes).log =
        r.log ++ ((r.partialLine.reverse ++ bytes).splitOn 10).dropLast.filterMap
          (lineDiagnostic source time) ∧
      ((r.partialLine.reverse ++ bytes).splitOn 10).getLast? =
        some (r.feed source time bytes).partialLine.reverse := by
  -- over the bytes, for whatever is left of the line before; no line break is ever left
  induction bytes generalizing r with
  | nil =>
    rw [List.append_nil, List.splitOn_eq_singleton hleft]
    exact ⟨(List.append_nil _).symm, rfl⟩
  | cons b bytes ih =>
    by_cases hb : b = 10
    · subst hb
      have hnext := ih (r.take source time 10) (by simp [take])
      have htake : r.take source time 10 =
          ⟨(lineDiagnostic source time r.partialLine.reverse).toList ++ r.found, []⟩ := by
        rw [take, if_pos rfl, List.reverse_cons, lineDiagnostic_append]
      have hlog : (r.take source time 10).log =
          r.log ++ (lineDiagnostic source time r.partialLine.reverse).toList := by
        rw [htake]
        cases lineDiagnostic source time r.partialLine.reverse <;> simp [log]
      have hlines : (r.partialLine.reverse ++ 10 :: bytes).splitOn 10 =
          r.partialLine.reverse :: bytes.splitOn 10 :=
        List.splitOn_append_cons_self_of_not_mem hleft bytes
      have hbegin : (r.take source time 10).partialLine.reverse = [] := by rw [htake]; rfl
      rw [hlog, hbegin, List.nil_append] at hnext
      have hne : bytes.splitOn 10 ≠ [] := List.splitOn_ne_nil 10 bytes
      rw [hlines, List.dropLast_cons_of_ne_nil hne, List.filterMap_cons]
      refine ⟨?_, ?_⟩
      · refine hnext.1.trans ?_
        cases lineDiagnostic source time r.partialLine.reverse <;> simp
      · rw [List.getLast?_cons_of_ne_nil hne]
        exact hnext.2
    · have htake : r.take source time b = { r with partialLine := b :: r.partialLine } := by
        rw [take, if_neg hb]
      have hleft' : 10 ∉ (r.take source time b).partialLine.reverse := by
        rw [htake]
        simpa [Ne.symm hb] using hleft
      have hnext := ih (r.take source time b) hleft'
      rw [htake] at hnext
      simp only [List.reverse_cons, List.append_assoc, List.singleton_append] at hnext
      rw [feed, List.foldl_cons, htake]
      exact hnext

/-- At the end what is left is a line. -/
theorem log_close (r : LogReader) (source : String) (time : Int) :
    (r.close source time).log =
      r.log ++ (lineDiagnostic source time r.partialLine.reverse).toList := by
  rw [close]
  split
  · next hnone =>
    rw [hnone, List.reverse_nil, lineDiagnostic_nil, Option.toList_none, List.append_nil]
  · cases lineDiagnostic source time r.partialLine.reverse <;> simp [log]

/-- Pieces are read as the bytes that they make together. -/
theorem foldl_feed (r : LogReader) (chunks : List Chunk) :
    chunks.foldl (fun r c => r.feed source time c.bytes.toList) r =
      r.feed source time (Course.joined chunks).toList := by
  induction chunks generalizing r with
  | nil => simp [Course.joined, feed]
  | cons c chunks ih =>
    rw [List.foldl_cons, ih, Course.toList_joined_cons, feed, feed, feed, List.foldl_append]

end LogReader

/-- The log is read line by line off the bytes of all pieces. -/
theorem readLog_eq (source : String) (time : Int) (chunks : List Chunk) (ended : Bool) :
    readLog source time chunks ended =
      (let lines := (Course.joined chunks).toList.splitOn 10
        if ended then lines else lines.dropLast).filterMap (lineDiagnostic source time) := by
  obtain ⟨hlog, hleft⟩ := LogReader.feed_eq source time {}
    (Course.joined chunks).toList (by simp)
  simp only [List.reverse_nil, List.nil_append] at hlog hleft
  rw [readLog, LogReader.foldl_feed]
  cases ended with
  | false => exact hlog
  | true =>
    obtain ⟨lines, hlines⟩ := List.getLast?_eq_some_iff.mp hleft
    rw [hlines, List.dropLast_concat] at hlog
    simp only [if_true, LogReader.log_close, hlog, hlines, List.filterMap_append]
    cases hlast : lineDiagnostic source time
        (LogReader.feed source time {} (Course.joined chunks).toList).partialLine.reverse <;>
      simp [hlast, LogReader.log]

/-- The log is read off the whole text, decoded at once. -/
theorem readLog_eq_wordedLines (source : String) (time : Int) (chunks : List Chunk) (ended : Bool) :
    readLog source time chunks ended =
      (wordedLines ended (Utf8.decode (Course.joined chunks).toList)).map fun line =>
        .ofLine source (String.ofList line) time := by
  have hline : lineDiagnostic source time = textDiagnostic source time ∘ Utf8.decode :=
    funext (lineDiagnostic_eq source time)
  rw [readLog_eq, wordedLines, Utf8.decode_splitOn, hline, ← filterMap_textDiagnostic]
  cases ended with
  | true => simp only [if_true, List.filterMap_map]
  | false =>
    simp only [Bool.false_eq_true, if_false, ← List.map_dropLast, List.filterMap_map]

/-! ### What is heard of a run -/

/-- What is heard on a child's error output until nobody waits for it any more: the pieces, and
whether the pipe was closed. -/
inductive Heard (config : Config.Renderer) (child : Child) : Ending → List Chunk → Bool → Prop
  | cancelled {asked stop : Nat} {course : Course}
      (ended : terminated child asked (micros config.grace) = (course, stop)) :
      Heard config child (.cancelled asked) (Course.upTo stop course.errors)
        (course.errorsEnd.any fun closed => closed ≤ stop)
  | timedOut {ceiling stop : Nat} {course : Course}
      (ended : killed child ceiling (micros config.grace) = (course, stop)) :
      Heard config child (.timedOut ceiling) (Course.upTo stop course.errors)
        (course.errorsEnd.any fun closed => closed ≤ stop)
  | finished {status : Except Fault ExitStatus} :
      Heard config child (.finished status) (child []).errors true

/-- How the log of the answer goes on from what was said: not at all, or with one remark. It is
given up with a rendering that was cancelled or whose end could not be learned. -/
inductive Keeps (config : Config.Renderer) (time : Int) (said : List Diagnostic) :
    Ending → List Diagnostic → Prop
  | cancelled {asked : Nat} : Keeps config time said (.cancelled asked) []
  | timedOut {ceiling : Nat} :
      Keeps config time said (.timedOut ceiling) (said ++ [timeoutDiagnostic config time])
  | unknown {fault : Fault} :
      Keeps config time said (.finished (.error fault)) [(RenderFault.wait fault).diagnostic time]
  | finished {status : ExitStatus} : Keeps config time said (.finished (.ok status)) said
  | noPage :
      Keeps config time said (.finished (.ok (.exited 0))) (said ++ [noOutputDiagnostic time])

/-- What arrives during a run is what is heard until its end, and the log keeps it. -/
theorem watch_arrived (config : Config.Renderer) (child : Child) (source : String) (time : Int)
    (cancel : Option Nat) :
    ∃ e chunks closed, Ends (child []) cancel (micros config.timeout) e ∧
      Heard config child e chunks closed ∧
      (watch config child source time cancel).arrived = readLog source time chunks closed ∧
      Keeps config time (readLog source time chunks closed) e
        (watch config child source time cancel).log := by
  have hends := ends_ending (child []) cancel (micros config.timeout)
  rw [watch]
  cases hend : ending (child []) cancel (micros config.timeout) with
  | cancelled asked => exact ⟨_, _, _, hend ▸ hends, .cancelled rfl, rfl, .cancelled⟩
  | timedOut ceiling => exact ⟨_, _, _, hend ▸ hends, .timedOut rfl, rfl, .timedOut⟩
  | finished status =>
    refine ⟨_, _, _, hend ▸ hends, .finished, ?_⟩
    cases status with
    | error fault => exact ⟨rfl, .unknown⟩
    | ok status =>
      refine ⟨rfl, ?_⟩
      dsimp only
      rw [classify]
      split
      · next hgood =>
        obtain rfl : status = .exited 0 := by simpa [ExitStatus.success] using hgood
        split
        · exact .noPage
        · exact .finished
      · exact .finished

/-- **The error output becomes the log without loss.** However the error output is cut into
pieces, what is read of it is one diagnostic for each line of its text that is not blank, in
order; a last line without a line break counts once the pipe was closed. The lines of the text,
decoded at once, are the lines of bytes, decoded one by one. The listeners of a rendering hear the
diagnostics of what its child has said, under its generation and in this order, and its log goes
on from them; where no child is started nothing is heard. -/
theorem log_of_stream (source : String) (time : Int) (chunks : List Chunk) (ended : Bool) :
    readLog source time chunks ended =
        (wordedLines ended (Utf8.decode (Course.joined chunks).toList)).map (fun line =>
          .ofLine source (String.ofList line) time) ∧
      (Utf8.decode (Course.joined chunks).toList).splitOn '\n' =
        ((Course.joined chunks).toList.splitOn 10).map Utf8.decode ∧
      ∀ (host : Host) (config : Config.Renderer) (request : Request) (cancel : Option Nat)
        (m : Machine),
        ((∀ l started, cancel ≠ some 0 → launch config request.document m = .ok l →
            host.start l.machine l.invocation ≠ .ok started) →
          (render host config request cancel m).live = []) ∧
        ∀ l started, cancel ≠ some 0 → launch config request.document m = .ok l →
          host.start l.machine l.invocation = .ok started →
          ∃ e heard closed, Ends (started.child []) cancel (micros config.timeout) e ∧
            Heard config started.child e heard closed ∧
            (render host config request cancel m).live =
              (readLog l.input.argument m.time heard closed).map
                (fun d => ⟨request.generation, d⟩) ∧
            Keeps config m.time (readLog l.input.argument m.time heard closed) e
              (render host config request cancel m).result.log := by
  refine ⟨readLog_eq_wordedLines source time chunks ended, Utf8.decode_splitOn _, ?_⟩
  intro host config request cancel m
  rw [render_eq_answer]
  constructor
  · intro hnone
    split
    · rfl
    next huncancelled =>
    cases hlaunch : launch config request.document m with
    | error refused => rfl
    | ok l =>
      cases hstart : host.start l.machine l.invocation with
      | error fault => simp only [answer, hstart]
      | ok started => exact absurd hstart (hnone l started huncancelled hlaunch)
  · intro l started huncancelled hlaunch hstart
    have htime : l.machine.time = m.time := (launch_ok hlaunch).1.time_eq
    obtain ⟨e, heard, closed, hends, hheard, harrived, hkeeps⟩ :=
      watch_arrived config started.child l.input.argument m.time cancel
    refine ⟨e, heard, closed, hends, hheard, ?_, ?_⟩
    · simp only [if_neg huncancelled, hlaunch, answer, hstart, htime, harrived]
    · simpa only [if_neg huncancelled, hlaunch, answer, hstart, htime] using hkeeps

/-- A machine with a renderer. -/
private def rehearsalRoom : Machine where
  tree :=
    ⟨[(["songs"], .directory), (["bin"], .directory), (["chordpro", "bin"], .tool "chordpro")]⟩
  workDir := ["songs"]
  home := ⟨"/home"⟩
  tempDir := ⟨"/tmp"⟩
  searchPath := [⟨"/bin"⟩]
  time := 0

/-- A request whose song goes to the standard input. -/
private def fromInput : Config.Renderer :=
  { input := .stdin }

/-- The third request for a song. -/
private def third : Request :=
  ⟨3, ⟨"[C]I heard", {}, .unsaved "Untitled-1"⟩, .previewOnly⟩

/-- A warning that is cut inside a character, a blank line, and a line that is cut off behind a
byte that begins nothing. -/
private def mutterings : List Chunk :=
  [⟨1, "-:2: warning: caf".toUTF8⟩, ⟨2, ⟨#[0xC3]⟩⟩, ⟨3, ⟨#[0xA9, 0x0A, 0x20]⟩⟩,
    ⟨4, ⟨#[0x0A, 0xFF]⟩⟩, ⟨5, "-:3: x".toUTF8⟩]

/-- A renderer that says this and fails. -/
private def mutterer : Child := fun _ =>
  ⟨[], mutterings, some (6, .ok (.exited 1)), some 6, some 6, rehearsalRoom.tree⟩

/-- What the warning and the cut line say. -/
private def muttered : List Diagnostic :=
  [⟨.warning, "warning: café", some 2, 0⟩, ⟨.notice, "\ufffd-:3: x", none, 0⟩]

/-- A failing rendering of a song from the standard input is heard line by line, with the second
line not blank cut off by the end, and its log says the same. -/
theorem mutterings_heard :
    let l : Launch := ⟨.stdin "[C]I heard",
      invocation rehearsalRoom third.document (.stdin "[C]I heard") ⟨"/bin/chordpro"⟩ [],
      rehearsalRoom⟩
    let host : Host := ⟨fun _ _ => .ok ⟨7, mutterer⟩⟩
    launch fromInput third.document rehearsalRoom = .ok l ∧
      host.start l.machine l.invocation = .ok ⟨7, mutterer⟩ ∧
      (render host fromInput third none rehearsalRoom).live = muttered.map (fun d => ⟨3, d⟩) ∧
      (render host fromInput third none rehearsalRoom).result.log = muttered ∧
      (render host fromInput third (some 0) rehearsalRoom).live = [] := by
  intro l host
  have hprogram : resolve rehearsalRoom fromInput.command = .ok (⟨"/bin/chordpro"⟩, []) := by
    decide +kernel
  have hlaunch : launch fromInput third.document rehearsalRoom = .ok l := by
    rw [launch_of_prepare (d := third.document) (m := rehearsalRoom) rfl, hprogram]
    rfl
  have hsaid : readLog "-" 0 mutterings true = muttered := by decide +kernel
  have hcourse : Ends (mutterer []) none (micros fromInput.timeout) (.finished (.ok (.exited 1))) :=
    .finished rfl nofun (by decide)
  have hstream := log_of_stream "-" 0 mutterings true
  obtain ⟨e, heard, closed, hends, hheard, hlive, hkeeps⟩ :=
    (hstream.2.2 host fromInput third none rehearsalRoom).2 l ⟨7, mutterer⟩ nofun hlaunch rfl
  obtain rfl := hends.unique hcourse
  cases hheard
  refine ⟨hlaunch, rfl, ?_, ?_, ?_⟩
  · rw [hlive, ← hsaid]
    rfl
  · rw [← hsaid]
    generalize (render host fromInput third none rehearsalRoom).result.log = log at hkeeps ⊢
    cases hkeeps
    rfl
  · refine (hstream.2.2 host fromInput third (some 0) rehearsalRoom).1 ?_
    exact fun l started h => absurd rfl h

end Rendering

end SongPreview
