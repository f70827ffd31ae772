import SongPreview.Proofs.Scheduler.Redundancy
import SongPreview.Proofs.Scheduler.Resting
import SongPreview.Proofs.Scheduler.Telling

/-!
# Bursts of changes

Changes that come closer to each other than the delay are rendered once. Every change that
reconsiders the document lets it wait anew or lets nothing wait, so that through a whole burst
the scheduler is where the last change has left it; log entries and answers in between do not
touch what waits. When nothing further comes, the rest of the delay passes, and what the last
change has left is accepted once, if it is not what was accepted before the burst.
-/

namespace SongPreview.Scheduler

variable {s first : Scheduler} {t : Turn} {since now : Nat} {last : Option Nat}

/-! ### What reconsidering does -/

/-- Considering the latest document lets it wait from now on, unless it is what was accepted:
then nothing waits. -/
theorem pending_considerLatest {document : Document} (now : Nat) (h : s.latest = some document) :
    if s.accepted = some (document.fingerprint s.scene.pane) then
      (s.considerLatest now false).1.debouncer.pending = none
    else
      (s.considerLatest now false).1.debouncer.pending = some (.of document s.scene.pane) ∧
        (s.considerLatest now false).1.debouncer.lastPush = some now := by
  split
  · next haccepted =>
    rw [considerLatest_of_accepted h haccepted]
    rfl
  · next hmoved =>
    rw [considerLatest_of_moved h (Or.inr hmoved)]
    exact ⟨rfl, rfl⟩

theorem delay_considerLatest (now : Nat) (force : Bool) (s : Scheduler) :
    (s.considerLatest now force).1.debouncer.delay = s.debouncer.delay := by
  rcases considerLatest_cases now force s with hsame | hclear | ⟨p, hpush⟩
  · rw [hsame]
  · rw [hclear]
    rfl
  · rw [hpush]
    rfl

/-- What a burst has left by now. Since it began, nothing was accepted. -/
structure Bursting (first : Scheduler) (last : Option Nat) (now : Nat) (s : Scheduler) : Prop where
  delay : s.debouncer.delay = first.debouncer.delay
  generation : s.generation = first.generation
  accepted : s.accepted = first.accepted
  told : s.latest ≠ none
  /-- Before the first change nothing waits. -/
  idle : last = none → s.debouncer.pending = none
  /-- The last change has let the document wait, unless it is what was accepted. -/
  waits : ∀ time, last = some time → time ≤ now ∧ ∀ document, s.latest = some document →
    if s.accepted = some (document.fingerprint s.scene.pane) then s.debouncer.pending = none
    else s.debouncer.pending = some (.of document s.scene.pane) ∧
      s.debouncer.lastPush = some time

theorem bursting_start (hlatest : s.latest ≠ none) (hidle : s.debouncer.pending = none)
    (since : Nat) : s.Bursting none since s where
  delay := rfl
  generation := rfl
  accepted := rfl
  told := hlatest
  idle _ := hidle
  waits := nofun

/-- Considering the latest document is a change of a burst. -/
theorem Bursting.considerLatest (hdelay : s.debouncer.delay = first.debouncer.delay)
    (hgeneration : s.generation = first.generation) (haccepted : s.accepted = first.accepted)
    (htold : s.latest ≠ none) (now : Nat) :
    first.Bursting (some now) now (s.considerLatest now false).1 := by
  obtain ⟨debouncer, hconsider⟩ := considerLatest_fst now false s
  have hdelay' := delay_considerLatest now false s
  constructor
  · rw [hdelay', hdelay]
  · rw [hconsider]
    exact hgeneration
  · rw [hconsider]
    exact haccepted
  · rw [hconsider]
    exact htold
  · exact nofun
  · rintro time ⟨⟩
    refine ⟨Nat.le_refl now, fun document hdocument => ?_⟩
    have hlatest : s.latest = some document := by
      rw [hconsider] at hdocument
      exact hdocument
    have hpending := pending_considerLatest now hlatest
    simp only [hconsider] at hpending ⊢
    exact hpending

/-- A change restarts the delay or lets nothing wait, whatever came before. -/
theorem Bursting.renew (h : first.Bursting last since s) (hcomes : s.CanCome since now t)
    (ht : s.reconsiders t = true) :
    t.time? = some now ∧ first.Bursting (some now) now (s.turn t).1 := by
  cases t with
  | event time event =>
    obtain ⟨rfl, -⟩ := hcomes
    cases event with
    | edit document =>
      rw [turn_event rfl]
      exact ⟨rfl, Bursting.considerLatest (s := { s with latest := some document }) h.delay
        h.generation h.accepted nofun time⟩
    | setPane pane =>
      have hpane : pane ≠ s.scene.pane := by simpa [reconsiders] using ht
      rw [turn_event rfl]
      simp only [dispatch, if_neg hpane, revise]
      exact ⟨rfl, Bursting.considerLatest (s := { s with scene := { s.scene with pane } }) h.delay
        h.generation h.accepted h.told time⟩
    | refresh | clearLog | notice | shutdown => cases ht
  | answer | hangUp | timer => cases ht

/-! ### What comes in between -/

/-- A turn that changes nothing and accepts nothing leaves a burst as it stands. -/
theorem Bursting.keep (h : first.Bursting last since s) (hcomes : s.CanCome since now t)
    (hends : t.ends = false) (hrefresh : t.isRefresh = false) (ht : s.reconsiders t = false)
    (hkeeps : (s.turn t).1.generation = s.generation) :
    first.Bursting last now (s.turn t).1 := by
  obtain ⟨hdebouncer, hlatest, haccepted, hpane⟩ := turn_keeps_waiting hends hrefresh ht hkeeps
  constructor
  · rw [hdebouncer, h.delay]
  · rw [hkeeps, h.generation]
  · rw [haccepted, h.accepted]
  · rw [hlatest]
    exact h.told
  · rw [hdebouncer]
    exact h.idle
  · intro time htime
    obtain ⟨hle, hwaits⟩ := h.waits time htime
    refine ⟨Nat.le_trans hle hcomes.le, ?_⟩
    rw [hlatest, haccepted, hpane, hdebouncer]
    exact hwaits

/-- What waits in a burst is the latest document in the view on show, since the last change. -/
theorem Bursting.of_pending {p : Pending} (h : first.Bursting last since s)
    (hpending : s.debouncer.pending = some p) :
    ∃ time document, last = some time ∧ time ≤ since ∧ s.debouncer.lastPush = some time ∧
      s.latest = some document ∧ p = .of document s.scene.pane ∧
      first.accepted ≠ some (document.fingerprint s.scene.pane) := by
  obtain ⟨document, hdocument⟩ := Option.ne_none_iff_exists'.mp h.told
  cases hlast : last with
  | none =>
    rw [h.idle hlast] at hpending
    cases hpending
  | some time =>
    obtain ⟨hle, hwaits⟩ := h.waits time hlast
    have hstands := hwaits document hdocument
    split at hstands
    · rw [hstands] at hpending
      cases hpending
    · next hmoved =>
      obtain ⟨hwaiting, hpush⟩ := hstands
      rw [hpending] at hwaiting
      rw [h.accepted] at hmoved
      exact ⟨time, document, rfl, hle, hpush, hdocument, Option.some.inj hwaiting, hmoved⟩

/-- A generation that is given out in a burst is given out by the clock, once the delay has passed
since the last change, to the latest document in the view on show. -/
theorem Bursting.acceptance (h : first.Bursting last since s) (hcomes : s.CanCome since now t)
    {request : Request} (ht : s.acceptance? t = some request) :
    ∃ time document, t = .timer now ∧ last = some time ∧ time + first.debouncer.delay ≤ now ∧
      s.latest = some document ∧ first.accepted ≠ some (document.fingerprint s.scene.pane) ∧
      request = ⟨first.generation + 1, document, s.scene.pane⟩ ∧
      s.turn t = accept (.of document s.scene.pane) { s with debouncer := s.debouncer.clear } := by
  cases t with
  | answer | event | hangUp => cases ht
  | timer wake =>
    obtain ⟨p, hpending, hrequest, haccept⟩ | ⟨hnone, -⟩ := acceptance_cases s (.timer wake)
    · obtain ⟨time, document, hlast, hle, hpush, hlatest, rfl, hmoved⟩ := h.of_pending hpending
      have hdelay := le_of_canCome_timer hpush hle hcomes
      rw [h.delay] at hdelay
      have hwake : wake = now := hcomes.1
      refine ⟨time, document, by rw [hwake], hlast, hdelay, hlatest, hmoved, ?_, haccept⟩
      rw [ht] at hrequest
      rw [Option.some.inj hrequest, h.generation]
      rfl
    · rw [ht] at hnone
      cases hnone

/-- When a scheduler wakes by itself in a burst, what waits is due. -/
theorem Bursting.acceptance_of_timer (h : first.Bursting last since s)
    (hcomes : s.CanCome since now (.timer now)) : s.acceptance? (.timer now) ≠ none := by
  obtain ⟨p, hpending⟩ := Option.isSome_iff_exists.mp hcomes.2.1
  obtain ⟨time, document, -, hle, hpush, -, -, -⟩ := h.of_pending hpending
  have hdue := le_of_canCome_timer hpush hle hcomes
  have hlater : time ≤ now := Nat.le_trans hle hcomes.le
  rw [acceptance?, Debouncer.takeIfReady_of_pending hpending hpush hlater, if_pos hdue]
  exact Option.some_ne_none _

namespace Run

variable {r : Run} {turns turns' : List Turn} {stop : Nat}

/-! ### What a run gives its generations to -/

theorem acceptances_cons (h : r.running = true) (t : Turn) (turns : List Turn) :
    r.acceptances (t :: turns) =
      (r.scheduler.acceptance? t).toList ++ (r.take t).acceptances turns := by
  rw [acceptances, if_pos h]

theorem acceptances_append (r : Run) (turns turns' : List Turn) :
    r.acceptances (turns ++ turns') =
      r.acceptances turns ++ (r.after turns).acceptances turns' := by
  induction turns generalizing r with
  | nil => rfl
  | cons t turns ih =>
    rw [List.cons_append, acceptances, acceptances, ih, List.append_assoc]
    rfl

/-- Every generation is given out to one document in one view, and those that are on show are
handed to the renderer. -/
theorem givenOut_after (r : Run) (turns : List Turn) :
    (r.after turns).givenOut = r.givenOut ++ (r.acceptances turns).map Request.generation ∧
      (r.after turns).handed =
        r.handed ++ (r.acceptances turns).filter fun request => request.pane.showsPreview := by
  induction turns generalizing r with
  | nil => simp [acceptances]
  | cons t turns ih =>
    obtain ⟨hgiven, hhanded⟩ := ih (r.take t)
    rw [after_cons, hgiven, hhanded]
    cases hrunning : r.running with
    | false =>
      rw [take_of_stopped hrunning, acceptances, if_neg (by simp [hrunning]), List.nil_append,
        take_of_stopped hrunning]
      exact ⟨rfl, rfl⟩
    | true =>
      rw [givenOut_take hrunning, handed_take hrunning, acceptances_cons hrunning]
      obtain ⟨p, -, hacceptance, hturn⟩ | ⟨hnone, -, -, hrequests, hgiven⟩ :=
        acceptance_cases r.scheduler t
      · rw [hturn, accept_givenOut, accept_requests, hacceptance]
        cases hshows : p.pane.showsPreview <;> simp [hshows]
      · rw [hnone, hrequests, hgiven]
        simp

/-! ### Whole bursts -/

/-- The times at which some turns made the scheduler consider its document anew. -/
def renewals (r : Run) : List Turn → List Nat
  | [] => []
  | t :: turns =>
    (if r.scheduler.reconsiders t then t.time?.toList else []) ++ (r.take t).renewals turns

theorem renewals_append (r : Run) (turns turns' : List Turn) :
    r.renewals (turns ++ turns') = r.renewals turns ++ (r.after turns).renewals turns' := by
  induction turns generalizing r with
  | nil => rfl
  | cons t turns ih =>
    rw [List.cons_append, renewals, renewals, ih, List.append_assoc]
    rfl

/-- What is told by the clock is told no earlier than the clock began. -/
theorem InTime.le_renewals (h : r.InTime since turns stop) :
    ∀ time ∈ r.renewals turns, since ≤ time := by
  induction h with
  | sleep => exact nofun
  | @wake since now stop r t turns comes onward ih =>
    intro time htime
    rw [renewals, List.mem_append] at htime
    rcases htime with hnow | hlater
    · split at hnow
      · cases t with
        | event at? event =>
          have hat : time = at? := by simpa [Turn.time?] using hnow
          have hcomes : at? = now ∧ since ≤ now := comes
          omega
        | answer | hangUp => cases hnow
        | timer => simp_all [reconsiders]
      · cases hnow
    · exact Nat.le_trans comes.le (ih time hlater)

/-- Once the delay has passed since a change, every further change would come too late for its
burst. -/
theorem InTime.renewals_eq_nil {time delay : Nat} (h : r.InTime now turns stop)
    (hdelay : time + delay ≤ now)
    (hclose : (time :: r.renewals turns).IsChain fun earlier later => later < earlier + delay) :
    r.renewals turns = [] := by
  rw [List.eq_nil_iff_forall_not_mem]
  intro later hlater
  obtain ⟨next, rest, hnext⟩ := List.exists_cons_of_ne_nil (List.ne_nil_of_mem hlater)
  rw [hnext] at hclose
  have hsoon : next < time + delay := (List.isChain_cons_cons.mp hclose).1
  have hlate : now ≤ next := h.le_renewals next (by rw [hnext]; exact List.mem_cons_self)
  omega

/-- Without a change nothing is reconsidered at the first turn, nor at a later one. -/
theorem renewals_cons_eq_nil (h : r.renewals (t :: turns) = []) :
    r.scheduler.reconsiders t = false ∧ (r.take t).renewals turns = [] := by
  rw [renewals, List.append_eq_nil_iff] at h
  refine ⟨?_, h.2⟩
  by_contra hreconsiders
  rw [Bool.not_eq_false] at hreconsiders
  have hnone := h.1
  rw [if_pos hreconsiders, Option.toList_eq_nil_iff] at hnone
  cases t with
  | event now event => cases hnone
  | answer | hangUp | timer => cases hreconsiders

/-- Where nothing waits, and nothing is told anew or refreshed, no generation is given out. -/
theorem acceptances_of_idle (hrunning : r.running = true)
    (hidle : r.scheduler.debouncer.pending = none)
    (hturns : ∀ t ∈ turns, t.ends = false ∧ t.isRefresh = false) (hnone : r.renewals turns = []) :
    r.acceptances turns = [] ∧ (r.after turns).scheduler.debouncer.pending = none ∧
      (r.after turns).scheduler.latest = r.scheduler.latest ∧
      (r.after turns).scheduler.scene.pane = r.scheduler.scene.pane := by
  induction turns generalizing r with
  | nil => exact ⟨rfl, hidle, rfl, rfl⟩
  | cons t turns ih =>
    obtain ⟨⟨hends, hrefresh⟩, hturns⟩ := List.forall_mem_cons.mp hturns
    obtain ⟨hstays, hnone⟩ := renewals_cons_eq_nil hnone
    obtain ⟨p, hpending, -⟩ | ⟨hacceptance, hkeeps, -⟩ := acceptance_cases r.scheduler t
    · rw [hidle] at hpending
      cases hpending
    · obtain ⟨hdebouncer, hlatest, -, hpane⟩ := turn_keeps_waiting hends hrefresh hstays hkeeps
      have htake : (r.take t).scheduler = (r.scheduler.turn t).1 := by rw [take_of_running hrunning]
      rw [← htake] at hdebouncer hlatest hpane
      obtain ⟨hrest, hpending, hlatest', hpane'⟩ := ih (running_take.mpr ⟨hrunning, hends⟩)
        (by rw [hdebouncer, hidle]) hturns hnone
      rw [acceptances_cons hrunning, hacceptance, hrest]
      exact ⟨rfl, hpending, hlatest'.trans hlatest, hpane'.trans hpane⟩

/-- What has become of a burst: what the last change has left still stands, or it was given the
one generation, and nothing waits any more. -/
def Outlasts (first : Scheduler) (last : Option Nat) (stop : Nat) (r : Run)
    (accepted : List Request) : Prop :=
  first.Bursting last stop r.scheduler ∧ accepted = [] ∨
    r.scheduler.debouncer.pending = none ∧ ∃ document, r.scheduler.latest = some document ∧
      first.accepted ≠ some (document.fingerprint r.scheduler.scene.pane) ∧
      accepted = [⟨first.generation + 1, document, r.scheduler.scene.pane⟩]

/-- Changes that come closer to each other than the delay follow each other before anything is
accepted. -/
theorem outlasts_after (h : first.Bursting last since r.scheduler) (hrunning : r.running = true)
    (htime : r.InTime since turns stop)
    (hturns : ∀ t ∈ turns, t.ends = false ∧ t.isRefresh = false)
    (hclose : (last.toList ++ r.renewals turns).IsChain fun earlier later =>
      later < earlier + first.debouncer.delay) :
    Outlasts first (last.toList ++ r.renewals turns).getLast? stop (r.after turns)
      (r.acceptances turns) := by
  induction htime generalizing last with
  | @sleep since r =>
    left
    refine ⟨?_, rfl⟩
    cases last <;> exact h
  | @wake since now stop r t turns comes onward ih =>
    obtain ⟨⟨hends, hrefresh⟩, hlater⟩ := List.forall_mem_cons.mp hturns
    have hgoes : (r.take t).running = true := running_take.mpr ⟨hrunning, hends⟩
    have htake : (r.take t).scheduler = (r.scheduler.turn t).1 := by rw [take_of_running hrunning]
    rw [acceptances_cons hrunning]
    cases hreconsiders : r.scheduler.reconsiders t with
    | true =>
      -- a change: what waited before makes no difference any more
      obtain ⟨hnow, hburst⟩ := h.renew comes hreconsiders
      have hnone : r.scheduler.acceptance? t = none := by
        cases t with
        | event | answer | hangUp => rfl
        | timer => cases hreconsiders
      have hrenewals : r.renewals (t :: turns) = now :: (r.take t).renewals turns := by
        rw [renewals, if_pos hreconsiders, hnow]
        rfl
      rw [hrenewals] at hclose ⊢
      rw [hnone, List.getLast?_append_cons]
      have hrest : ((some now).toList ++ (r.take t).renewals turns).IsChain fun earlier later =>
          later < earlier + first.debouncer.delay := hclose.right_of_append
      exact ih (htake ▸ hburst) hgoes hlater hrest
    | false =>
      have hrenewals : r.renewals (t :: turns) = (r.take t).renewals turns := by
        rw [renewals, hreconsiders]
        rfl
      rw [hrenewals] at hclose ⊢
      cases hacceptance : r.scheduler.acceptance? t with
      | none =>
        obtain ⟨p, -, hsome, -⟩ | ⟨-, hkeeps, -⟩ := acceptance_cases r.scheduler t
        · rw [hacceptance] at hsome
          cases hsome
        · exact ih (htake ▸ h.keep comes hends hrefresh hreconsiders hkeeps) hgoes hlater hclose
      | some request =>
        obtain ⟨time, document, rfl, rfl, hdelay, hlatest, hmoved, rfl, haccept⟩ :=
          h.acceptance comes hacceptance
        have hnone : (r.take (.timer now)).renewals turns = [] :=
          onward.renewals_eq_nil hdelay hclose
        have hidle : (r.take (.timer now)).scheduler.debouncer.pending = none := by
          rw [htake, haccept, accept_debouncer]
          rfl
        obtain ⟨hrest, hpending, hlatest', hpane'⟩ :=
          acceptances_of_idle hgoes hidle hlater hnone
        rw [htake, haccept, accept_latest] at hlatest'
        rw [htake, haccept, accept_scene_pane] at hpane'
        right
        refine ⟨hpending, document, hlatest'.trans hlatest, ?_, ?_⟩
        · rw [after_cons, hpane']
          exact hmoved
        · rw [hrest, after_cons, hpane']
          rfl

/-- At the turns of a burst, and at those behind it, one generation was given out, to a request,
and nothing waits any more. -/
structure AcceptedOnce (r : Run) (turns : List Turn) (request : Request) : Prop where
  acceptances : r.acceptances turns = [request]
  givenOut : (r.after turns).givenOut = r.givenOut ++ [request.generation]
  handed : (r.after turns).handed =
    r.handed ++ if request.pane.showsPreview then [request] else []
  idle : (r.after turns).scheduler.debouncer.pending = none

theorem acceptedOnce_of_acceptances {request : Request} (h : r.acceptances turns = [request])
    (hidle : (r.after turns).scheduler.debouncer.pending = none) :
    r.AcceptedOnce turns request := by
  obtain ⟨hgiven, hhanded⟩ := givenOut_after r turns
  rw [h] at hgiven hhanded
  refine ⟨h, hgiven, ?_, hidle⟩
  rw [hhanded]
  cases hshows : request.pane.showsPreview <;> simp [hshows]

/-- A generation that is given out at a turn is given out to what the turn accepts. -/
theorem exists_acceptance_of_givenOut {before : List Turn}
    (h : (r.after (before ++ [t])).givenOut ≠ (r.after before).givenOut) :
    ∃ request, (r.after before).scheduler.acceptance? t = some request := by
  cases hrunning : (r.after before).running with
  | false =>
    rw [after_append, after_cons, take_of_stopped hrunning] at h
    exact absurd rfl h
  | true =>
    cases hacceptance : (r.after before).scheduler.acceptance? t with
    | some request => exact ⟨request, rfl⟩
    | none =>
      rw [(givenOut_after _ (before ++ [t])).1, (givenOut_after _ before).1, acceptances_append,
        acceptances_cons hrunning, hacceptance] at h
      simp [acceptances] at h

/-- Nothing is accepted in a burst before the delay has passed since its last change. -/
theorem timer_of_acceptance {last : Nat} {before rest : List Turn} {request : Request}
    (h : first.Bursting none since r.scheduler) (hrunning : r.running = true)
    (htime : r.InTime since (before ++ t :: rest) stop)
    (hturns : ∀ t ∈ before, t.ends = false ∧ t.isRefresh = false)
    (hclose : (r.renewals (before ++ t :: rest)).IsChain fun earlier later =>
      later < earlier + first.debouncer.delay)
    (hlast : (r.renewals (before ++ t :: rest)).getLast? = some last)
    (hacceptance : (r.after before).scheduler.acceptance? t = some request) :
    ∃ now, t = .timer now ∧ last + first.debouncer.delay ≤ now := by
  obtain ⟨mid, hbefore, hrest⟩ := htime.split
  rw [renewals_append] at hclose hlast
  rcases outlasts_after h hrunning hbefore hturns hclose.left_of_append with
    ⟨hburst, -⟩ | ⟨hnone, -⟩
  · cases hrest with
    | @wake _ now _ _ _ _ comes onward =>
      obtain ⟨time, document, rfl, hbegan, hdelay, -⟩ := hburst.acceptance comes hacceptance
      have hbegan' : (r.renewals before).getLast? = some time := hbegan
      have hsame : (r.after before).renewals (.timer now :: rest) =
          ((r.after before).take (.timer now)).renewals rest := rfl
      -- the last change before this turn is the last one of all
      obtain ⟨front, hfront⟩ := List.getLast?_eq_some_iff.mp hbegan'
      rw [hsame, hfront, List.append_assoc] at hclose
      rw [hsame, onward.renewals_eq_nil hdelay hclose.right_of_append, List.append_nil,
        hbegan'] at hlast
      obtain rfl := Option.some.inj hlast
      exact ⟨now, rfl, hdelay⟩
  · obtain ⟨p, hpending, -⟩ | ⟨hno, -⟩ := acceptance_cases (r.after before).scheduler t
    · rw [hnone] at hpending
      cases hpending
    · rw [hacceptance] at hno
      cases hno

/-- **A burst is rendered once.** A running scheduler has a document and nothing waits. Then
documents are told and the view changes, each time sooner than the delay after the time before;
log entries and answers come in between and behind. Whatever the clock does, no generation is
given out before the delay has passed since the last of these changes. If the last document in
the last view is what was accepted before, none is given out at all. Otherwise one is, for this
document in this view: it was given out by the clock already, or the document still waits, and at
any time that is later than the last turn, and by the delay later than the last change, the
scheduler wakes by itself and gives it out. -/
theorem burst_accepted_once {last : Nat} (hrunning : r.running = true)
    (hlatest : r.scheduler.latest ≠ none) (hidle : r.scheduler.debouncer.pending = none)
    (htime : r.InTime since turns stop)
    (hturns : ∀ t ∈ turns, t.ends = false ∧ t.isRefresh = false)
    (hclose : (r.renewals turns).IsChain fun earlier later =>
      later < earlier + r.scheduler.debouncer.delay)
    (hlast : (r.renewals turns).getLast? = some last) :
    (∀ before t rest, turns = before ++ t :: rest →
      (r.after (before ++ [t])).givenOut ≠ (r.after before).givenOut →
      ∃ now, t = .timer now ∧ last + r.scheduler.debouncer.delay ≤ now) ∧
    ∃ document view,
      (turns.filterMap Turn.document?).getLast?.or r.scheduler.latest = some document ∧
      (turns.filterMap Turn.pane?).getLast?.getD r.scheduler.scene.pane = view ∧
      (r.scheduler.accepted = some (document.fingerprint view) →
        (r.after turns).givenOut = r.givenOut ∧
          (r.after turns).scheduler.debouncer.pending = none) ∧
      (r.scheduler.accepted ≠ some (document.fingerprint view) →
        r.AcceptedOnce turns ⟨r.scheduler.generation + 1, document, view⟩ ∨
          (r.after turns).givenOut = r.givenOut ∧
            (r.after turns).scheduler.debouncer.pending = some (.of document view) ∧
            ∀ now, stop < now → last + r.scheduler.debouncer.delay ≤ now →
              r.InTime since (turns ++ [.timer now]) now ∧
                r.AcceptedOnce (turns ++ [.timer now])
                  ⟨r.scheduler.generation + 1, document, view⟩) := by
  have hstart : r.scheduler.Bursting none since r.scheduler := bursting_start hlatest hidle since
  have hgoes : (r.after turns).running = true := running_after_of_not_ends hrunning fun t ht =>
    (hturns t ht).1
  have htold : (r.after turns).scheduler.latest =
      (turns.filterMap Turn.document?).getLast?.or r.scheduler.latest := by
    rw [latest_after hgoes, Turn.filterMap_document?]
  have hview : (r.after turns).scheduler.scene.pane =
      (turns.filterMap Turn.pane?).getLast?.getD r.scheduler.scene.pane := by
    rw [view_after hgoes, Turn.filterMap_pane?]
  constructor
  · rintro before t rest rfl hgiven
    obtain ⟨request, hacceptance⟩ := exists_acceptance_of_givenOut hgiven
    exact timer_of_acceptance hstart hrunning htime
      (fun t ht => hturns t (List.mem_append_left _ ht)) hclose hlast hacceptance
  · rw [← htold, ← hview]
    rcases outlasts_after hstart hrunning htime hturns hclose with
      ⟨hburst, hnone⟩ | ⟨hpending, document, hdocument, hmoved, haccepted⟩
    · obtain ⟨document, hdocument⟩ := Option.ne_none_iff_exists'.mp hburst.told
      have hgiven : (r.after turns).givenOut = r.givenOut := by
        rw [(givenOut_after r turns).1, hnone, List.map_nil, List.append_nil]
      obtain ⟨hle, hwaits⟩ := hburst.waits last hlast
      have hstands := hwaits document hdocument
      rw [hburst.accepted] at hstands
      refine ⟨document, _, hdocument, rfl, fun hback => ?_, fun hmoved => Or.inr ?_⟩
      · rw [if_pos hback] at hstands
        exact ⟨hgiven, hstands⟩
      · rw [if_neg hmoved] at hstands
        obtain ⟨hpending, hpush⟩ := hstands
        refine ⟨hgiven, hpending, fun now hlater hdelay => ?_⟩
        have hcomes : (r.after turns).scheduler.CanCome stop now (.timer now) := by
          refine ⟨rfl, by rw [hpending]; rfl, ?_⟩
          simp only [Debouncer.sleepTime, Debouncer.sleepAtLeast, hpush, hburst.delay]
          omega
        obtain ⟨request, haccepts⟩ :=
          Option.ne_none_iff_exists'.mp (hburst.acceptance_of_timer hcomes)
        obtain ⟨_, document', -, -, -, hdocument', -, rfl, haccept⟩ :=
          hburst.acceptance hcomes haccepts
        obtain rfl : document = document' := Option.some.inj (hdocument.symm.trans hdocument')
        refine ⟨htime.append (.wake hcomes .sleep), acceptedOnce_of_acceptances ?_ ?_⟩
        · rw [acceptances_append, hnone, acceptances_cons hgoes, haccepts]
          rfl
        · rw [after_append, after_cons, after_nil, take_of_running hgoes, haccept,
            accept_debouncer]
          rfl
    · exact ⟨document, _, hdocument, rfl, fun hback => absurd hback hmoved, fun _ =>
        Or.inl (acceptedOnce_of_acceptances haccepted hpending)⟩

/-- A song that is being rendered. -/
private def underWay : Run :=
  (start (.new (.unsaved "Untitled-1") .editorAndPreview) 300).after
    [.event 0 (.edit ⟨"[C]I heard", {}, .unsaved "Untitled-1"⟩), .timer 300]

/-- The song is changed, hidden, and changed again and shown at once. The rendering ends and the log
is cleared in between. -/
private def fourChanges : List Turn :=
  [.event 400 (.edit ⟨"[C]I heard\n[F]there", {}, .unsaved "Untitled-1"⟩),
    .event 500 (.setPane .editorOnly), .answer ⟨1, .success "one".toUTF8, []⟩,
    .event 650 .clearLog,
    .event 750 (.edit ⟨"[C]I heard\n[F]there was", {}, .unsaved "Untitled-1"⟩),
    .event 750 (.setPane .previewOnly), .event 800 .clearLog]

private theorem inTime_fourChanges : underWay.InTime 300 fourChanges 800 :=
  .told (by decide) <| .told (by decide) <| .answered 600 (by decide) <| .told (by decide) <|
    .told (by decide) <| .told (by decide) <| .told (by decide) .sleep

/-- Of four changes the last text in the last view is rendered, once, by the delay later. -/
theorem four_changes_accepted_once :
    underWay.running = true ∧ underWay.scheduler.latest ≠ none ∧
      underWay.scheduler.debouncer.pending = none ∧ underWay.InTime 300 fourChanges 800 ∧
      (∀ t ∈ fourChanges, t.ends = false ∧ t.isRefresh = false) ∧
      underWay.renewals fourChanges = [400, 500, 750, 750] ∧
      (underWay.after fourChanges).givenOut = [1] ∧
      underWay.AcceptedOnce (fourChanges ++ [.timer 1050])
        ⟨2, ⟨"[C]I heard\n[F]there was", {}, .unsaved "Untitled-1"⟩, .previewOnly⟩ := by
  obtain ⟨hrunning, hlatest, hidle, hgiven, hgeneration, hdelay⟩ :
      underWay.running = true ∧ underWay.scheduler.latest ≠ none ∧
        underWay.scheduler.debouncer.pending = none ∧
        (underWay.after fourChanges).givenOut = [1] ∧ underWay.scheduler.generation = 1 ∧
        underWay.scheduler.debouncer.delay = 300 := by
    decide +kernel
  have hturns : ∀ t ∈ fourChanges, t.ends = false ∧ t.isRefresh = false := by decide
  have hrenewals : underWay.renewals fourChanges = [400, 500, 750, 750] := by decide +kernel
  have hclose : (underWay.renewals fourChanges).IsChain fun earlier later =>
      later < earlier + underWay.scheduler.debouncer.delay := by
    rw [hrenewals, hdelay]
    decide
  have hlast : (underWay.renewals fourChanges).getLast? = some 750 := by rw [hrenewals]; rfl
  obtain ⟨-, document, view, hdocument, hview, -, haccepts⟩ :=
    burst_accepted_once hrunning hlatest hidle inTime_fourChanges hturns hclose hlast
  obtain rfl : _ = document := Option.some.inj hdocument
  obtain rfl : _ = view := hview
  refine ⟨hrunning, hlatest, hidle, inTime_fourChanges, hturns, hrenewals, hgiven, ?_⟩
  rcases haccepts (by decide +kernel) with ⟨-, hsome, -⟩ | ⟨-, -, hlater⟩
  · rw [hgiven] at hsome
    exact absurd hsome (by decide +kernel)
  · rw [hgeneration] at hlater
    exact (hlater 1050 (by decide) (by rw [hdelay])).2

end Run

end SongPreview.Scheduler
