import SongPreview.Proofs.Rendering.Starting

/-!
# What comes of a request

A request is answered once, and how it is answered follows from what happened: nothing could
be started, or the renderer was started and the wait for it ended in one of three ways, of
which the first counts. This file states the rules for the start, for the end of the wait and
for the answer one by one, and shows that the program follows them and nothing else.
-/

namespace SongPreview.Rendering

variable {config : Config.Renderer} {d : Document} {m : Machine} {mode : InputMode}
  {course : Course} {cancel : Option Nat} {child : Child} {source : String} {time : Int}
  {outcome : Outcome} {log : List Diagnostic}

/-! ### Where nothing is started -/

/-- Why nothing is ready to be started for a document. -/
inductive Unready (config : Config.Renderer) (d : Document) (m : Machine) : RenderFault → Prop
  /-- The song could not be put where the renderer reads it. -/
  | input {fault : RenderFault} (unprepared : (Input.prepare config.input d m).1 = .error fault) :
      Unready config d m fault
  /-- The command names no program. -/
  | blank {input : Input} (prepared : (Input.prepare config.input d m).1 = .ok input)
      (blank : ∀ word, config.command.head? = some word → Text.isBlankString word = true) :
      Unready config d m .emptyCommand
  /-- The program is not there. -/
  | missing {input : Input} {word : String}
      (prepared : (Input.prepare config.input d m).1 = .ok input)
      (named : config.command.head? = some word) (worded : Text.isBlankString word = false)
      (missing : m.findProgram word = none) : Unready config d m (.unknownProgram word)

/-- A song on its way changes nothing but files. -/
theorem prepare_withTree (mode : InputMode) (d : Document) (m : Machine) :
    ∃ tree, (Input.prepare mode d m).2 = m.withTree tree := by
  cases mode with
  | stdin => exact ⟨m.tree, rfl⟩
  | file =>
    simp only [Input.prepare]
    split
    · exact ⟨m.tree, rfl⟩
    next place temp made hmade =>
      obtain ⟨-, -, -, rfl⟩ := Machine.makeTemp_ok hmade
      obtain ⟨kept, hkept⟩ := Action.pour_file place false d.text.toUTF8 m
      split
      next poured hpoured =>
        rw [hpoured] at hkept
        exact ⟨_, hkept⟩
      next fault poured hpoured =>
        rw [hpoured] at hkept
        obtain rfl : poured = m.withTree (m.tree.put place (.file kept false)) := hkept
        exact ⟨_, rfl⟩

theorem time_prepare (mode : InputMode) (d : Document) (m : Machine) :
    (Input.prepare mode d m).2.time = m.time := by
  obtain ⟨tree, htree⟩ := prepare_withTree mode d m
  rw [htree]
  rfl

theorem resolve_error_iff {command : List String} {fault : RenderFault} :
    resolve m command = .error fault ↔
      (∀ word, command.head? = some word → Text.isBlankString word = true) ∧
          fault = .emptyCommand ∨
        ∃ word, command.head? = some word ∧ Text.isBlankString word = false ∧
          m.findProgram word = none ∧ fault = .unknownProgram word := by
  cases command with
  | nil =>
    simp only [resolve, List.head?_nil, reduceCtorEq, false_implies, implies_true, true_and,
      false_and, exists_false, or_false, Except.error.injEq]
    exact eq_comm
  | cons word leading =>
    simp only [resolve, List.head?_cons, Option.some.injEq, forall_eq', exists_eq_left']
    cases Text.isBlankString word with
    | true =>
      simp only [if_true, Except.error.injEq, true_and, Bool.true_eq_false, false_and, or_false]
      exact eq_comm
    | false =>
      cases m.findProgram word with
      | none =>
        simp only [Bool.false_eq_true, if_false, Except.error.injEq, false_and, true_and, false_or]
        exact eq_comm
      | some program => simp

/-- What is ready to be started, once the song can be read. -/
theorem launch_of_prepare {input : Input} {after : Machine}
    (h : Input.prepare config.input d m = (.ok input, after)) :
    launch config d m =
      match resolve m config.command with
      | .error fault => .error (fault, input.discard after)
      | .ok (program, leading) => .ok ⟨input, invocation after d input program leading, after⟩ := by
  have hresolve := (prepared_of_prepare h).resolve config.command
  rw [launch, h]
  cases hfound : resolve m config.command with
  | error fault => simp only [hresolve, hfound]
  | ok found => simp only [hresolve, hfound]

/-- Nothing is started exactly where nothing is ready. -/
theorem launch_error_iff {fault : RenderFault} :
    (∃ after, launch config d m = .error (fault, after)) ↔ Unready config d m fault := by
  rcases hprepare : Input.prepare config.input d m with ⟨fault' | input, after⟩
  · have hlaunch : launch config d m = .error (fault', after) := by rw [launch, hprepare]
    constructor
    · rintro ⟨_, h⟩
      rw [hlaunch] at h
      cases h
      exact .input (by rw [hprepare])
    · rintro (unprepared | prepared | prepared)
      · rw [hprepare] at unprepared
        cases unprepared
        exact ⟨after, hlaunch⟩
      all_goals
        rw [hprepare] at prepared
        cases prepared
  · have hprepared : (Input.prepare config.input d m).1 = .ok input := by rw [hprepare]
    have hresolve : (∃ after, launch config d m = .error (fault, after)) ↔
        resolve m config.command = .error fault := by
      rw [launch_of_prepare hprepare]
      cases resolve m config.command with
      | error fault' => simp
      | ok found => simp
    rw [hresolve, resolve_error_iff]
    constructor
    · rintro (⟨hblank, rfl⟩ | ⟨word, hnamed, hworded, hmissing, rfl⟩)
      · exact .blank hprepared hblank
      · exact .missing hprepared hnamed hworded hmissing
    · rintro (unprepared | ⟨-, hblank⟩ | ⟨-, hnamed, hworded, hmissing⟩)
      · rw [hprepare] at unprepared
        cases unprepared
      · exact .inl ⟨hblank, rfl⟩
      · exact .inr ⟨_, hnamed, hworded, hmissing, rfl⟩

theorem time_of_launch_error {fault : RenderFault} {after : Machine}
    (h : launch config d m = .error (fault, after)) : after.time = m.time := by
  have htime := time_prepare config.input d m
  rcases hprepare : Input.prepare config.input d m with ⟨fault' | input, prepared⟩
  · rw [launch, hprepare] at h
    rw [hprepare] at htime
    cases h
    exact htime
  · rw [launch_of_prepare hprepare] at h
    rw [hprepare] at htime
    split at h
    · cases h
      cases input <;> exact htime
    · cases h

theorem Prepared.time_eq {input : Input} {m' : Machine} (h : Prepared d m mode input m') :
    m'.time = m.time := by
  cases h <;> rfl

/-! ### The end of the wait -/

/-- How the wait for a renderer ends that may be cancelled at a time and is given up at another:
of what happens at once, the first in this order counts. -/
inductive Ends (course : Course) (cancel : Option Nat) (ceiling : Nat) : Ending → Prop
  /-- The cancellation came no later than anything else. -/
  | cancelled {asked : Nat} (told : cancel = some asked) (intime : asked ≤ ceiling)
      (running : ∀ done, course.finished? = some done → asked ≤ done.1) :
      Ends course cancel ceiling (.cancelled asked)
  /-- The time allowed was over before the renderer had ended and closed both pipes. -/
  | timedOut (uncancelled : ∀ asked, cancel = some asked → ceiling < asked)
      (running : ∀ done, course.finished? = some done → ceiling ≤ done.1) :
      Ends course cancel ceiling (.timedOut ceiling)
  /-- The renderer had ended and closed both pipes before. -/
  | finished {finish : Nat} {status : Except Fault ExitStatus}
      (closed : course.finished? = some (finish, status))
      (uncancelled : ∀ asked, cancel = some asked → finish < asked) (intime : finish < ceiling) :
      Ends course cancel ceiling (.finished status)

theorem ends_ending (course : Course) (cancel : Option Nat) (ceiling : Nat) :
    Ends course cancel ceiling (ending course cancel ceiling) := by
  unfold ending
  cases hdone : course.finished? with
  | none =>
    have hrunning (time : Nat) : ∀ done, course.finished? = some done → time ≤ done.1 := by
      rw [hdone]
      exact nofun
    cases cancel with
    | none => exact .timedOut nofun (hrunning _)
    | some asked =>
      by_cases hintime : asked ≤ ceiling
      · simpa [hintime] using Ends.cancelled rfl hintime (hrunning asked)
      · have huncancelled : ∀ time, some asked = some time → ceiling < time := by
          rintro time ⟨⟩
          omega
        simpa [hintime] using Ends.timedOut huncancelled (hrunning ceiling)
  | some done =>
    have hrunning {time : Nat} (h : time ≤ done.1) :
        ∀ other, course.finished? = some other → time ≤ other.1 := by
      rw [hdone]
      rintro other ⟨⟩
      exact h
    cases cancel with
    | none =>
      by_cases hlate : ceiling ≤ done.1
      · have hends : Ends course none ceiling _ := .timedOut nofun (hrunning hlate)
        simpa [hlate] using hends
      · have hends : Ends course none ceiling _ := .finished hdone nofun (by omega)
        simpa [hlate] using hends
    | some asked =>
      by_cases hintime : asked ≤ ceiling ∧ asked ≤ done.1
      · simpa [hintime] using Ends.cancelled rfl hintime.1 (hrunning hintime.2)
      · by_cases hlate : ceiling ≤ done.1
        · have huncancelled : ∀ time, some asked = some time → ceiling < time := by
            rintro time ⟨⟩
            omega
          simpa [hintime, hlate] using Ends.timedOut huncancelled (hrunning hlate)
        · have huncancelled : ∀ time, some asked = some time → done.1 < time := by
            rintro time ⟨⟩
            omega
          simpa [hintime, hlate] using Ends.finished hdone huncancelled (by omega)

/-- Only one end follows from what happened. -/
theorem Ends.unique {ceiling : Nat} {e e' : Ending} (h : Ends course cancel ceiling e)
    (h' : Ends course cancel ceiling e') : e = e' := by
  cases h with
  | cancelled hcancel hintime hrunning =>
    cases h' with
    | cancelled hcancel' => rw [Option.some.inj (hcancel.symm.trans hcancel')]
    | timedOut hnot => exact absurd (hnot _ hcancel) (by omega)
    | finished hdone hnot => exact absurd (hnot _ hcancel) (by have := hrunning _ hdone; omega)
  | timedOut hnot hrunning =>
    cases h' with
    | cancelled hcancel hintime => exact absurd (hnot _ hcancel) (by omega)
    | timedOut => rfl
    | finished hdone _ hintime => exact absurd (hrunning _ hdone) (by omega)
  | finished hdone hnot hintime =>
    cases h' with
    | cancelled hcancel _ hrunning =>
      exact absurd (hnot _ hcancel) (by have := hrunning _ hdone; omega)
    | timedOut _ hrunning => exact absurd (hrunning _ hdone) (by omega)
    | finished hdone' => rw [(Prod.mk.inj (Option.some.inj (hdone.symm.trans hdone'))).2]

/-- The wait ends as it follows from what happened. -/
theorem ending_eq_iff {ceiling : Nat} {e : Ending} :
    ending course cancel ceiling = e ↔ Ends course cancel ceiling e := by
  constructor
  · rintro rfl
    exact ends_ending course cancel ceiling
  · exact (ends_ending course cancel ceiling).unique

/-! ### What the end comes to -/

/-- What is answered at each end of the wait, and with which log. What the renderer itself has
said comes first. -/
inductive Concludes (config : Config.Renderer) (child : Child) (source : String) (time : Int) :
    Ending → Outcome → List Diagnostic → Prop
  | cancelled {asked : Nat} : Concludes config child source time (.cancelled asked) .cancelled []
  /-- What was said until the renderer was gone, and that it took too long. -/
  | timedOut {ceiling stop : Nat} {course : Course}
      (ended : killed child ceiling (micros config.grace) = (course, stop)) :
      Concludes config child source time (.timedOut ceiling) (.failed none)
        (logAt source time course stop ++
          [.unattributed .error
            ("renderer timed out after " ++ secondsText config.timeout ++ "s") time])
  /-- Nothing but that the end could not be learned. -/
  | unknown {fault : Fault} :
      Concludes config child source time (.finished (.error fault)) (.failed none)
        [.unattributed .error ("failed to wait for renderer: " ++ fault.message) time]
  /-- The page is all that was written. -/
  | page {page : ByteArray} (written : Course.joined (child []).output = page)
      (nonempty : page ≠ .empty) :
      Concludes config child source time (.finished (.ok (.exited 0))) (.success page)
        (readLog source time (child []).errors true)
  | noPage (empty : Course.joined (child []).output = .empty) :
      Concludes config child source time (.finished (.ok (.exited 0))) (.failed (some 0))
        (readLog source time (child []).errors true ++
          [.unattributed .error "renderer exited successfully but produced no output" time])
  | exited {code : Nat} (bad : code ≠ 0) :
      Concludes config child source time (.finished (.ok (.exited code))) (.failed (some code))
        (readLog source time (child []).errors true)
  | signalled {signal : Nat} :
      Concludes config child source time (.finished (.ok (.signalled signal))) (.failed none)
        (readLog source time (child []).errors true)

/-- A renderer that ended by itself is judged by its status and its page. -/
theorem concludes_ok_iff {status : ExitStatus} :
    Concludes config child source time (.finished (.ok status)) outcome log ↔
      classify status (Course.joined (child []).output)
        (readLog source time (child []).errors true) time = (outcome, log) := by
  rcases status with code | signal
  · by_cases hcode : code = 0
    · subst hcode
      by_cases hpage : Course.joined (child []).output = .empty
      · simp only [classify, hpage]
        constructor
        · intro h
          cases h with
          | page written nonempty => exact absurd (written.symm.trans hpage) nonempty
          | noPage => rfl
          | exited bad => exact absurd rfl bad
        · rintro ⟨⟩
          exact .noPage hpage
      · have hsize : (Course.joined (child []).output).size ≠ 0 := by
          simpa [ByteArray.size_eq_zero_iff] using hpage
        simp only [classify, hsize]
        constructor
        · intro h
          cases h with
          | page written => exact written ▸ rfl
          | noPage empty => exact absurd empty hpage
          | exited bad => exact absurd rfl bad
        · rintro ⟨⟩
          exact .page rfl hpage
    · have hbad : (ExitStatus.exited code).success = false := by
        simpa [ExitStatus.success] using hcode
      simp only [classify, hbad]
      constructor
      · intro h
        cases h with
        | page | noPage => exact absurd rfl hcode
        | exited => rfl
      · rintro ⟨⟩
        exact .exited hcode
  · constructor
    · rintro ⟨⟩
      rfl
    · rintro ⟨⟩
      exact .signalled

/-- A run comes to what follows from its end. -/
theorem watch_iff :
    (watch config child source time cancel).outcome = outcome ∧
        (watch config child source time cancel).log = log ↔
      ∃ e, Ends (child []) cancel (micros config.timeout) e ∧
        Concludes config child source time e outcome log := by
  have hends (e : Ending) : Ends (child []) cancel (micros config.timeout) e ↔
      ending (child []) cancel (micros config.timeout) = e := ending_eq_iff.symm
  simp only [hends, exists_eq_left', watch]
  cases ending (child []) cancel (micros config.timeout) with
  | cancelled asked =>
    constructor
    · rintro ⟨rfl, rfl⟩
      exact .cancelled
    · rintro ⟨⟩
      exact ⟨rfl, rfl⟩
  | timedOut ceiling =>
    constructor
    · rintro ⟨rfl, rfl⟩
      exact .timedOut rfl
    · intro h
      cases h with
      | timedOut ended =>
        simp only [ended]
        exact ⟨trivial, rfl⟩
  | finished status =>
    cases status with
    | error fault =>
      constructor
      · rintro ⟨rfl, rfl⟩
        exact .unknown
      · rintro ⟨⟩
        exact ⟨rfl, rfl⟩
    | ok status =>
      rw [concludes_ok_iff]
      exact Prod.mk.injEq .. ▸ Iff.rfl

/-! ### The answer -/

/-- How a request can be answered. -/
inductive Answered (host : Host) (config : Config.Renderer) (d : Document) (m : Machine) :
    Option Nat → Outcome → List Diagnostic → Prop
  /-- It was cancelled before anything was done. -/
  | cancelledBefore : Answered host config d m (some 0) .cancelled []
  /-- There is no program for it, or no input. -/
  | unready {cancel : Option Nat} {fault : RenderFault} (uncancelled : cancel ≠ some 0)
      (unready : Unready config d m fault) :
      Answered host config d m cancel (.failed none) [.unattributed .error fault.message m.time]
  /-- The program cannot be started. -/
  | refused {cancel : Option Nat} {l : Launch} {fault : Fault} (uncancelled : cancel ≠ some 0)
      (ready : launch config d m = .ok l)
      (refused : host.start l.machine l.invocation = .error fault) :
      Answered host config d m cancel (.failed none)
        [.unattributed .error (RenderFault.start l.invocation.program fault).message m.time]
  /-- The child came to one of its ends. -/
  | ran {cancel : Option Nat} {l : Launch} {started : Started} {e : Ending}
      {outcome : Outcome} {log : List Diagnostic} (uncancelled : cancel ≠ some 0)
      (ready : launch config d m = .ok l)
      (accepted : host.start l.machine l.invocation = .ok started)
      (ends : Ends (started.child []) cancel (micros config.timeout) e)
      (concludes : Concludes config started.child l.input.argument m.time e outcome log) :
      Answered host config d m cancel outcome log

section

variable {host : Host} {l : Launch}

theorem answered_iff_of_cancelled :
    Answered host config d m (some 0) outcome log ↔ outcome = .cancelled ∧ log = [] := by
  constructor
  · intro h
    cases h with
    | cancelledBefore => exact ⟨rfl, rfl⟩
    | unready uncancelled | refused uncancelled | ran uncancelled => exact absurd rfl uncancelled
  · rintro ⟨rfl, rfl⟩
    exact .cancelledBefore

theorem answered_iff_of_unready {fault : RenderFault} {after : Machine} (hcancel : cancel ≠ some 0)
    (hlaunch : launch config d m = .error (fault, after)) :
    Answered host config d m cancel outcome log ↔
      outcome = .failed none ∧ log = [fault.diagnostic m.time] := by
  constructor
  · intro h
    cases h with
    | cancelledBefore => exact absurd rfl hcancel
    | unready _ unready =>
      obtain ⟨after', hlaunch'⟩ := launch_error_iff.mpr unready
      rw [hlaunch] at hlaunch'
      cases hlaunch'
      exact ⟨rfl, rfl⟩
    | refused _ ready | ran _ ready =>
      rw [hlaunch] at ready
      cases ready
  · rintro ⟨rfl, rfl⟩
    exact .unready hcancel (launch_error_iff.mp ⟨after, hlaunch⟩)

/-- Where something is ready to be started, the answer depends on its start alone. -/
theorem answered_iff_of_ready (hcancel : cancel ≠ some 0) (hlaunch : launch config d m = .ok l) :
    Answered host config d m cancel outcome log ↔
      (∃ fault, host.start l.machine l.invocation = .error fault ∧ outcome = .failed none ∧
        log = [(RenderFault.start l.invocation.program fault).diagnostic m.time]) ∨
      ∃ started e, host.start l.machine l.invocation = .ok started ∧
        Ends (started.child []) cancel (micros config.timeout) e ∧
        Concludes config started.child l.input.argument m.time e outcome log := by
  constructor
  · intro h
    cases h with
    | cancelledBefore => exact absurd rfl hcancel
    | unready _ unready =>
      obtain ⟨after, hlaunch'⟩ := launch_error_iff.mpr unready
      rw [hlaunch] at hlaunch'
      cases hlaunch'
    | refused _ ready refused =>
      obtain rfl := Except.ok.inj (hlaunch.symm.trans ready)
      exact .inl ⟨_, refused, rfl, rfl⟩
    | ran _ ready accepted ends concludes =>
      obtain rfl := Except.ok.inj (hlaunch.symm.trans ready)
      exact .inr ⟨_, _, accepted, ends, concludes⟩
  · rintro (⟨fault, refused, rfl, rfl⟩ | ⟨started, e, accepted, ends, concludes⟩)
    · exact .refused hcancel hlaunch refused
    · exact .ran hcancel hlaunch accepted ends concludes

end

/-- **What comes of a request.** For every host, every renderer that it may start and every time
of a cancellation, the answer has the generation of its request, and its outcome and its log are
those, and only those, that follow from what happened. -/
theorem render_result_iff (host : Host) (config : Config.Renderer) (request : Request)
    (cancel : Option Nat) (m : Machine) (result : RenderResult) :
    (render host config request cancel m).result = result ↔
      result.generation = request.generation ∧
        Answered host config request.document m cancel result.outcome result.log := by
  obtain ⟨generation, outcome, log⟩ := result
  rw [render_eq_answer]
  by_cases hcancel : cancel = some 0
  · rw [if_pos hcancel, hcancel, answered_iff_of_cancelled, RenderResult.mk.injEq]
    simp only [eq_comm]
  · rw [if_neg hcancel]
    cases hlaunch : launch config request.document m with
    | error refused =>
      obtain ⟨fault, after⟩ := refused
      rw [answered_iff_of_unready hcancel hlaunch, ← time_of_launch_error hlaunch]
      simp only [answer, failedResult, RenderResult.mk.injEq, eq_comm]
    | ok l =>
      rw [answered_iff_of_ready hcancel hlaunch, ← (launch_ok hlaunch).1.time_eq]
      cases hstart : host.start l.machine l.invocation with
      | error fault =>
        have htime : (l.input.discard l.machine).time = l.machine.time := by
          cases l.input <;> rfl
        simp only [answer, hstart, failedResult, htime, RenderResult.mk.injEq, Except.error.injEq,
          exists_eq_left', reduceCtorEq, false_and, exists_false, or_false, eq_comm]
      | ok started =>
        simp only [answer, hstart, RenderResult.mk.injEq, watch_iff, reduceCtorEq, false_and,
          exists_false, false_or, Except.ok.injEq, ↓existsAndEq, true_and]
        exact and_congr_left' eq_comm

end SongPreview.Rendering
