import SongPreview.Observer
import SongPreview.Proofs.Machine.Replacing
import SongPreview.Proofs.Scheduler.Publishing

/-!
# The output file and the scene

An observer sees some of the scenes that a scheduler publishes, and no one else writes to
the output file. Whichever scenes it misses, the file holds what it held at first or the
page of a scene that was seen; pages are saved in the order of their generations, each at
most once; and while the last scene that was seen shows a page, the file holds this page.
The observer decides by the generation and the status of a scene alone: that is enough,
since a page stays the same under its generation.
-/

namespace SongPreview

namespace Observer

variable {o : Observer} {m : Machine} {s : Scene}

/-- What the observer knows a scene by. -/
def key (s : Scene) : Nat × Status :=
  (s.generation, s.status)

/-- A look at the scene saves its page. -/
def saves (o : Observer) (s : Scene) : Bool :=
  key s ≠ o.seen ∧ s.status = .succeeded

/-- A look at the scene saves its log, if logs are wanted. -/
def exports (o : Observer) (s : Scene) : Bool :=
  key s ≠ o.seen ∧ (s.status = .succeeded ∨ s.status = .failed)

/-- The machine after the page of a scene was saved, if there is one. -/
def pageSaved (o : Observer) (s : Scene) (m : Machine) : Machine :=
  s.artifact.elim m fun page => (Saving.replace o.output page m).2

/-- The machine after the log of a scene was saved, if it is wanted. -/
def logSaved (o : Observer) (s : Scene) (m : Machine) : Machine :=
  o.logPath.elim m fun path => (Saving.writeLog path s.log m).2

/-- The observer has the same task and knows the same scene. -/
structure SameTask (o o' : Observer) : Prop where
  output : o'.output = o.output
  logPath : o'.logPath = o.logPath
  seen : o'.seen = o.seen
  seenLog : o'.seenLog = o.seenLog

theorem bind_apply {α β : Type} (x : Observing α) (f : α → Observing β)
    (w : Machine × Observer) : (x >>= f) w = f (x w).1 (x w).2 :=
  rfl

theorem get_apply (w : Machine × Observer) : (get : Observing (Machine × Observer)) w = (w, w) :=
  rfl

theorem save_apply (saving : Saving Unit) (m : Machine) (o : Observer) :
    save saving (m, o) = ((saving m).1, (saving m).2, o) :=
  rfl

theorem snd_report (r : Terminal.StatusReport) (m : Machine) (o : Observer) :
    ∃ o', SameTask o o' ∧ (report r (m, o)).2 = (m, o') :=
  ⟨{ o with block := (o.block.display (Layout.clockTime m.time) r).2 }, ⟨rfl, rfl, rfl, rfl⟩, rfl⟩

theorem snd_saveLog (s : Scene) (m : Machine) (o : Observer) :
    (saveLog s (m, o)).2 = (o.logSaved s m, o) := by
  simp only [saveLog, logSaved, bind_apply, get_apply]
  cases o.logPath with
  | none => rfl
  | some path =>
    simp only [bind_apply, save_apply]
    cases (Saving.writeLog path s.log m).1 <;> rfl

theorem snd_savePage (s : Scene) (m : Machine) (o : Observer) :
    ∃ o', SameTask o o' ∧ (savePage s (m, o)).2 = (o.pageSaved s m, o') := by
  rw [savePage, pageSaved]
  cases s.artifact with
  | none => exact ⟨o, ⟨rfl, rfl, rfl, rfl⟩, rfl⟩
  | some page =>
    simp only [bind_apply, get_apply, save_apply]
    cases (Saving.replace o.output page m).1 <;> exact snd_report _ _ _

theorem SameTask.logSaved {o' : Observer} (h : SameTask o o') (s : Scene) (m : Machine) :
    o'.logSaved s m = o.logSaved s m := by
  rw [Observer.logSaved, Observer.logSaved, h.logPath]

/-- What is told of a scene, and what is saved of it. -/
theorem snd_tell (s : Scene) (m : Machine) (o : Observer) :
    ∃ o', SameTask o o' ∧ (tell s (m, o)).2 =
      (match s.status with
        | .succeeded => o.logSaved s (o.pageSaved s m)
        | .failed => o.logSaved s m
        | .rendering | .idle => m, o') := by
  rw [tell]
  cases s.status with
  | rendering =>
    simp only [bind_apply, get_apply]
    exact snd_report _ _ _
  | succeeded =>
    obtain ⟨o', htask, hpage⟩ := snd_savePage s m o
    refine ⟨o', htask, ?_⟩
    simp only [bind_apply, hpage]
    rw [← htask.logSaved]
    exact snd_saveLog s _ o'
  | failed =>
    obtain ⟨o', htask, hreport⟩ := snd_report
      (.error ("render failed: " ++ s.source.shortName) (Diagnostic.summarize s.log)) m o
    refine ⟨o', htask, ?_⟩
    simp only [bind_apply, hreport]
    rw [← htask.logSaved]
    exact snd_saveLog s m o'
  | idle =>
    simp only
    split
    · exact snd_report _ _ _
    · exact ⟨o, ⟨rfl, rfl, rfl, rfl⟩, rfl⟩

/-- The observer that knows a scene. -/
def knowing (o : Observer) (s : Scene) : Observer :=
  { o with seen := key s, seenLog := s.log.length }

/-- A scene that is known has nothing new but its log. -/
theorem observe_eq (s : Scene) (m : Machine) (o : Observer) :
    observe s (m, o) =
      if key s = o.seen then
        (String.join ((s.log.drop o.seenLog).map Terminal.diagnosticLine), m, o.knowing s)
      else tell s (m, o.knowing s) := by
  change (if key s = o.seen then
      (pure (String.join ((s.log.drop o.seenLog).map Terminal.diagnosticLine)) : Observing String)
    else tell s) (m, o.knowing s) = _
  split <;> rfl

/-- What a look at a scene does to the files. The observer knows the scene after it. -/
theorem snd_observe (s : Scene) (m : Machine) (o : Observer) :
    ∃ o', o'.output = o.output ∧ o'.logPath = o.logPath ∧ o'.seen = key s ∧
      o'.seenLog = s.log.length ∧ (observe s (m, o)).2 =
        (if o.exports s then o.logSaved s (if o.saves s then o.pageSaved s m else m) else m,
          o') := by
  rw [observe_eq]
  by_cases hkey : key s = o.seen
  · refine ⟨o.knowing s, rfl, rfl, rfl, rfl, ?_⟩
    simp [hkey, exports]
  · obtain ⟨o', htask, htell⟩ := snd_tell s m (o.knowing s)
    refine ⟨o', htask.output, htask.logPath, htask.seen, htask.seenLog, ?_⟩
    rw [if_neg hkey, htell]
    cases hstatus : s.status <;> simp [exports, saves, hkey, hstatus] <;> rfl

end Observer

/-- What happens while an observer watches: it looks at a scene, or others change the files. -/
inductive Moment where
  | look (scene : Scene)
  | change (machine : Machine)

/-- An observer at work, with the scenes that it has looked at and those whose pages it saved. -/
structure Watching where
  machine : Machine
  observer : Observer
  observed : List Scene := []
  saved : List Scene := []

namespace Watching

variable {w : Watching} {out : Location} {first : Machine} {s : Scene} {moments : List Moment}

/-- What a moment does. -/
def take (w : Watching) : Moment → Watching
  | .look s =>
    { machine := (Observer.observe s (w.machine, w.observer)).2.1
      observer := (Observer.observe s (w.machine, w.observer)).2.2
      observed := w.observed ++ [s]
      saved := if w.observer.saves s then w.saved ++ [s] else w.saved }
  | .change machine => { w with machine }

/-- The observer after some moments. -/
def after (w : Watching) (moments : List Moment) : Watching :=
  moments.foldl take w

/-- The machine once the page of a scene was saved, if a look at it saves it. -/
def paged (w : Watching) (s : Scene) : Machine :=
  if w.observer.saves s then w.observer.pageSaved s w.machine else w.machine

/-- What is assumed of a moment about the file at a place: a page that is saved is saved without
a fault, and the path of the output leads to the place then; no log goes there; and others leave
what is held there as it is. -/
def Calm (out : Location) (w : Watching) : Moment → Prop
  | .look s =>
    (w.observer.saves s = true → ∀ page ∈ s.artifact,
      (Saving.replace w.observer.output page w.machine).1 = .ok () ∧
        (w.paged s).tree.locate (w.paged s).workDir w.observer.output = .ok out) ∧
    (w.observer.exports s = true → ∀ path ∈ w.observer.logPath,
      Saving.logPlace? path (w.paged s) ≠ some out)
  | .change machine => machine.tree.held? out = w.machine.tree.held? out

instance decidableCalm (out : Location) (w : Watching) : (moment : Moment) →
    Decidable (w.Calm out moment)
  | .look _ => inferInstanceAs (Decidable (_ ∧ _))
  | .change _ => inferInstanceAs (Decidable (_ = _))

/-- This is so at each of some moments. -/
def CalmAll (out : Location) : Watching → List Moment → Prop
  | _, [] => True
  | w, moment :: moments => w.Calm out moment ∧ (w.take moment).CalmAll out moments

instance decidableCalmAll (out : Location) : (w : Watching) → (moments : List Moment) →
    Decidable (w.CalmAll out moments)
  | _, [] => isTrue trivial
  | w, moment :: moments =>
    have := decidableCalmAll out (w.take moment) moments
    inferInstanceAs (Decidable (w.Calm out moment ∧ (w.take moment).CalmAll out moments))

theorem take_look (w : Watching) (s : Scene) :
    (w.take (.look s)).machine =
        (if w.observer.exports s then w.observer.logSaved s (w.paged s) else w.machine) ∧
      (w.take (.look s)).observer.output = w.observer.output ∧
      (w.take (.look s)).observer.seen = Observer.key s := by
  obtain ⟨o', houtput, -, hseen, -, hobserve⟩ := Observer.snd_observe s w.machine w.observer
  simp only [take, hobserve, paged, houtput, hseen, and_self]

/-- A page that is saved is a page of a scene that succeeded. -/
theorem saves_iff {o : Observer} :
    o.saves s = true ↔ Observer.key s ≠ o.seen ∧ s.status = .succeeded := by
  simp [Observer.saves]

theorem exports_of_saves {o : Observer} (h : o.saves s = true) : o.exports s = true := by
  simp only [Observer.saves, Observer.exports, decide_eq_true_eq] at h ⊢
  exact ⟨h.1, Or.inl h.2⟩

/-- A log that goes elsewhere leaves what is held. -/
theorem held_logSaved {m : Machine} {o : Observer}
    (h : ∀ path ∈ o.logPath, Saving.logPlace? path m ≠ some out) :
    (o.logSaved s m).tree.held? out = m.tree.held? out := by
  rw [Observer.logSaved]
  cases hpath : o.logPath with
  | none => rfl
  | some path => exact (Saving.changedAt_writeLog path s.log m).held out (h path hpath)

/-- A look that saves no page leaves what is held. -/
theorem held_look_of_not_saves (hcalm : w.Calm out (.look s)) (h : w.observer.saves s = false) :
    (w.take (.look s)).machine.tree.held? out = w.machine.tree.held? out := by
  rw [(take_look w s).1]
  have hpaged : w.paged s = w.machine := by simp [paged, h]
  split
  · next hexports =>
    rw [held_logSaved (hcalm.2 hexports), hpaged]
  · rfl

/-- A look that saves a page leaves this page. -/
theorem held_look_of_saves (hcalm : w.Calm out (.look s)) (h : w.observer.saves s = true)
    {page : ByteArray} (hpage : s.artifact = some page) :
    (w.take (.look s)).machine.tree.held? out = some (.file page false) := by
  have hexports := exports_of_saves h
  obtain ⟨hsaved, hleads⟩ := hcalm.1 h page hpage
  have hpaged : w.paged s = (Saving.replace w.observer.output page w.machine).2 := by
    simp [paged, h, Observer.pageSaved, hpage]
  have hreplace : Saving.replace w.observer.output page w.machine = (.ok (), w.paged s) :=
    Prod.ext hsaved hpaged.symm
  obtain ⟨place, hplace, hends⟩ := Saving.eq_of_replace hreplace
  rw [(take_look w s).1, if_pos hexports, held_logSaved (hcalm.2 hexports), hends out hleads]
  exact Tree.held?_of_get? hplace nofun

/-- Scenes that show no page, and scenes that are known, leave the files as they are, unless a
rendering has failed. -/
theorem machine_look (h : Observer.key s = w.observer.seen ∨ s.status = .idle ∨
    s.status = .rendering) : (w.take (.look s)).machine = w.machine := by
  rw [(take_look w s).1, if_neg]
  rcases h with hknown | hidle | hrendering
  · simp [Observer.exports, hknown]
  · simp [Observer.exports, hidle]
  · simp [Observer.exports, hrendering]

/-! ### What the file holds -/

/-- A place holds the page of a scene. -/
def Holds (w : Watching) (out : Location) (s : Scene) : Prop :=
  ∃ page, s.artifact = some page ∧ w.machine.tree.held? out = some (.file page false)

/-- The file follows the scenes that were seen. -/
structure Follows (out : Location) (first : Machine) (w : Watching) : Prop where
  /-- The observer knows the last scene that was seen. -/
  seen : w.observer.seen = (w.observed.getLast?.map Observer.key).getD (0, .idle)
  /-- The file holds the page that was saved last, or what it held at first. -/
  content : ∀ s, w.saved.getLast? = some s → w.Holds out s
  untouched : w.saved = [] → w.machine.tree.held? out = first.tree.held? out
  saved : w.saved.Sublist w.observed
  succeeded : ∀ s ∈ w.saved, s.status = .succeeded
  ordered : w.saved.Pairwise fun earlier later => earlier.generation < later.generation
  /-- A page that is on show is in the file. -/
  shown : ∀ s, w.observed.getLast? = some s → s.status = .succeeded → w.Holds out s

theorem Holds.of_held {w' : Watching} (h : w.Holds out s)
    (hheld : w'.machine.tree.held? out = w.machine.tree.held? out) : w'.Holds out s := by
  obtain ⟨page, hpage, hfile⟩ := h
  exact ⟨page, hpage, hheld.trans hfile⟩

theorem follows_change {machine : Machine} (h : w.Follows out first)
    (hcalm : w.Calm out (.change machine)) : (w.take (.change machine)).Follows out first where
  seen := h.seen
  content s hs := (h.content s hs).of_held hcalm
  untouched hnone := hcalm.trans (h.untouched hnone)
  saved := h.saved
  succeeded := h.succeeded
  ordered := h.ordered
  shown s hs hstatus := (h.shown s hs hstatus).of_held hcalm

/-- The last of some scenes goes on from each of them. -/
theorem precedes_of_getLast? {scenes : List Scene} {a last : Scene}
    (hordered : scenes.Pairwise Scene.Precedes) (ha : a ∈ scenes)
    (hlast : scenes.getLast? = some last) : a.Precedes last := by
  obtain ⟨before, rfl⟩ := List.getLast?_eq_some_iff.mp hlast
  rcases List.mem_append.mp ha with hbefore | hend
  · exact (List.pairwise_append.mp hordered).2.2 a hbefore last (List.mem_singleton_self last)
  · rw [List.mem_singleton.mp hend]
    exact Scene.Precedes.refl last

/-- A known scene that shows a page shows the page of the scene that was seen last. -/
theorem Follows.holds_known (h : w.Follows out first)
    (hordered : (w.observed ++ [s]).Pairwise Scene.Precedes)
    (hknown : Observer.key s = w.observer.seen) (hstatus : s.status = .succeeded) :
    w.Holds out s := by
  rw [h.seen] at hknown
  cases hlast : w.observed.getLast? with
  | none =>
    rw [hlast] at hknown
    have hidle : s.status = .idle := congrArg Prod.snd hknown
    rw [hstatus] at hidle
    cases hidle
  | some last =>
    rw [hlast] at hknown
    have hgeneration : s.generation = last.generation := congrArg Prod.fst hknown
    have hlastStatus : last.status = .succeeded := (congrArg Prod.snd hknown).symm.trans hstatus
    have hprecedes : last.Precedes s := (List.pairwise_append.mp hordered).2.2 last
      (List.mem_of_getLast? hlast) s (List.mem_singleton_self s)
    obtain ⟨page, hpage, hheld⟩ := h.shown last hlast hlastStatus
    have hsame := (hprecedes.artifact_eq hgeneration.symm hlastStatus).2
    exact ⟨page, hsame.trans hpage, hheld⟩

/-- A page that is saved is of a later generation than every page that was saved before: a scene
of the same generation would be known. -/
theorem Follows.generation_lt_of_saves (h : w.Follows out first)
    (hordered : (w.observed ++ [s]).Pairwise Scene.Precedes)
    (hsaves : w.observer.saves s = true) :
    ∀ a ∈ w.saved, a.generation < s.generation := by
  intro a ha
  obtain ⟨hnew, hstatus⟩ := saves_iff.mp hsaves
  have hmem := h.saved.subset ha
  obtain ⟨hbefore, -, hlater⟩ := List.pairwise_append.mp hordered
  rcases hlater a hmem s (List.mem_singleton_self s) with hlt | ⟨heq, -⟩
  · exact hlt
  exfalso
  obtain ⟨last, hlast⟩ : ∃ last, w.observed.getLast? = some last :=
    ⟨_, List.getLast?_eq_some_getLast (List.ne_nil_of_mem hmem)⟩
  have hfirst := precedes_of_getLast? hbefore hmem hlast
  have hsecond := hlater last (List.mem_of_getLast? hlast) s (List.mem_singleton_self s)
  have hgeneration : a.generation = last.generation :=
    Nat.le_antisymm hfirst.generation_le (heq ▸ hsecond.generation_le)
  have hlastStatus := (hfirst.artifact_eq hgeneration (h.succeeded a ha)).1
  refine hnew ?_
  rw [h.seen, hlast]
  exact Prod.ext (heq.symm.trans hgeneration) (hstatus.trans hlastStatus.symm)

theorem follows_look (h : w.Follows out first) (hcalm : w.Calm out (.look s))
    (hordered : (w.observed ++ [s]).Pairwise Scene.Precedes) (hcomplete : s.Complete) :
    (w.take (.look s)).Follows out first := by
  have hobserved : (w.take (.look s)).observed = w.observed ++ [s] := rfl
  have hlast : (w.take (.look s)).observed.getLast? = some s := by
    rw [hobserved, List.getLast?_concat]
  have hseen : (w.take (.look s)).observer.seen =
      ((w.take (.look s)).observed.getLast?.map Observer.key).getD (0, .idle) := by
    rw [hlast]
    exact (take_look w s).2.2
  cases hsaves : w.observer.saves s with
  | true =>
    have hsaved : (w.take (.look s)).saved = w.saved ++ [s] := if_pos hsaves
    have hstatus := (saves_iff.mp hsaves).2
    obtain ⟨page, hpage⟩ := Option.isSome_iff_exists.mp (hcomplete hstatus)
    have hholds : (w.take (.look s)).Holds out s :=
      ⟨page, hpage, held_look_of_saves hcalm hsaves hpage⟩
    have honly {a : Scene} (ha : some s = some a) : (w.take (.look s)).Holds out a :=
      Option.some.inj ha ▸ hholds
    constructor
    · exact hseen
    · exact fun a ha => honly (by rwa [hsaved, List.getLast?_concat] at ha)
    · intro hnone
      simp [hsaved] at hnone
    · rw [hsaved, hobserved]
      exact h.saved.append (List.Sublist.refl [s])
    · intro a ha
      rw [hsaved] at ha
      rcases List.mem_append.mp ha with hbefore | hnew
      · exact h.succeeded a hbefore
      · rw [List.mem_singleton.mp hnew]
        exact hstatus
    · rw [hsaved, List.pairwise_append]
      refine ⟨h.ordered, List.pairwise_singleton _ _, fun a ha later hlater => ?_⟩
      rw [List.mem_singleton.mp hlater]
      exact h.generation_lt_of_saves hordered hsaves a ha
    · exact fun a ha _ => honly (hlast ▸ ha)
  | false =>
    have hsaved : (w.take (.look s)).saved = w.saved := by
      simp only [take, hsaves, Bool.false_eq_true, if_false]
    have hheld := held_look_of_not_saves hcalm hsaves
    constructor
    · exact hseen
    · exact fun a ha => (h.content a (hsaved ▸ ha)).of_held hheld
    · exact fun hnone => hheld.trans (h.untouched (hsaved ▸ hnone))
    · rw [hsaved, hobserved]
      exact h.saved.trans (List.sublist_append_left _ _)
    · exact hsaved ▸ h.succeeded
    · exact hsaved ▸ h.ordered
    · intro a ha hstatus
      obtain rfl : s = a := Option.some.inj (hlast ▸ ha)
      have hknown : Observer.key s = w.observer.seen := Decidable.of_not_not fun hnew => by
        rw [saves_iff.mpr ⟨hnew, hstatus⟩] at hsaves
        cases hsaves
      exact (h.holds_known hordered hknown hstatus).of_held hheld

/-- What was seen stays seen. -/
theorem observed_prefix_after (w : Watching) (moments : List Moment) :
    w.observed <+: (w.after moments).observed := by
  induction moments generalizing w with
  | nil => exact List.prefix_refl _
  | cons moment moments ih =>
    refine List.IsPrefix.trans ?_ (ih (w.take moment))
    cases moment with
    | look s => exact List.prefix_append _ _
    | change machine => exact List.prefix_refl _

theorem follows_after (h : w.Follows out first) (hcalm : w.CalmAll out moments)
    (hordered : (w.after moments).observed.Pairwise Scene.Precedes)
    (hcomplete : ∀ s ∈ (w.after moments).observed, s.Complete) :
    (w.after moments).Follows out first := by
  induction moments generalizing w with
  | nil => exact h
  | cons moment moments ih =>
    refine ih ?_ hcalm.2 hordered hcomplete
    cases moment with
    | change machine => exact follows_change h hcalm.1
    | look s =>
      have hbegin := observed_prefix_after (w.take (.look s)) moments
      exact follows_look h hcalm.1 (hordered.sublist hbegin.sublist)
        (hcomplete s (hbegin.subset (List.mem_append_right _ (List.mem_singleton_self s))))

/-- An observer of a scene that has seen nothing yet. -/
def begin (m : Machine) (o : Observer) : Watching where
  machine := m
  observer := o

theorem follows_begin {o : Observer} (ho : o.seen = (0, .idle)) (out : Location) (m : Machine) :
    (begin m o).Follows out m where
  seen := ho
  content := nofun
  untouched _ := rfl
  saved := List.Sublist.refl _
  succeeded := nofun
  ordered := List.Pairwise.nil
  shown := nofun

open Scheduler in
/-- **The output file follows the scene.** A scheduler runs from a scene that shows no page, and
no generation is answered twice: each is given to one rendering, and a rendering answers once. An
observer that has seen nothing yet looks at some of the scenes that are published, while others
change files but not the one at a place, and every page is saved there without a fault. Then this
file holds what it held at first, or the page of a scene that was seen. The scenes whose pages
were saved are some of those, of ever later generations. While the last scene that was seen shows
a page, the file holds it, and it is what is read there. A further look at a scene that is known
or shows no page does not touch the file; unless a rendering has failed, it touches no file at
all. -/
theorem output_follows_scene (scene : Scene) (debounce : Nat) (turns : List Turn) (m : Machine)
    (o : Observer) (out : Location) (moments : List Moment) {w : Watching}
    (hw : (begin m o).after moments = w) (hscene : scene.status ≠ .succeeded)
    (hanswers : (((Run.start scene debounce).after turns).answers.map
      RenderResult.generation).Nodup)
    (ho : o.seen = (0, .idle))
    (hobserved : w.observed.Sublist ((Run.start scene debounce).after turns).published)
    (hcalm : (begin m o).CalmAll out moments) :
    (w.machine.tree.held? out = m.tree.held? out ∨
      ∃ s ∈ w.observed, s.status = .succeeded ∧ w.Holds out s) ∧
    w.saved.Sublist w.observed ∧
    w.saved.Pairwise (fun earlier later => earlier.generation < later.generation) ∧
    (∀ s, w.observed.getLast? = some s → s.status = .succeeded → w.Holds out s ∧
      ∀ p, w.machine.tree.locate w.machine.workDir p = .ok out → w.machine.seen p = s.artifact) ∧
    (∀ s, w.Calm out (.look s) → Observer.key s = w.observer.seen ∨ s.status ≠ .succeeded →
      (w.take (.look s)).machine.tree.held? out = w.machine.tree.held? out) ∧
    ∀ s, Observer.key s = w.observer.seen ∨ s.status = .idle ∨ s.status = .rendering →
      (w.take (.look s)).machine = w.machine := by
  subst hw
  have hpages := Run.pagesStay_after hscene debounce turns hanswers
  have hfollows := follows_after (follows_begin ho out m) hcalm (hpages.ordered.sublist hobserved)
    fun s hs => hpages.completes s (hobserved.subset hs)
  refine ⟨?_, hfollows.saved, hfollows.ordered, ?_, ?_, fun s h => machine_look h⟩
  · cases hlast : ((begin m o).after moments).saved.getLast? with
    | none => exact Or.inl (hfollows.untouched (List.getLast?_eq_none_iff.mp hlast))
    | some s =>
      have hmem := List.mem_of_getLast? hlast
      exact Or.inr ⟨s, hfollows.saved.subset hmem, hfollows.succeeded s hmem,
        hfollows.content s hlast⟩
  · intro s hlast hstatus
    have hholds := hfollows.shown s hlast hstatus
    refine ⟨hholds, fun p hp => ?_⟩
    obtain ⟨page, hpage, hheld⟩ := hholds
    rw [hpage]
    exact Machine.seen_of_file hp (Tree.get?_of_held? hheld)
  · intro s hcalm' h
    refine held_look_of_not_saves hcalm' ?_
    rw [← Bool.not_eq_true, saves_iff]
    exact fun ⟨hnew, hstatus⟩ => h.elim hnew fun hno => hno hstatus

/-- A machine with a song, which the program works next to. -/
private def desk (files : List (Location × Entry)) : Machine where
  tree := ⟨(["songs"], .directory) ::
    (["song.cho", "songs"], .file "[C]I heard".toUTF8 false) :: files⟩
  workDir := ["songs"]
  home := ⟨"/home"⟩
  tempDir := ⟨"/tmp"⟩
  searchPath := []
  time := 0

/-- An observer that saves pages and logs next to the song. -/
private def reader : Observer where
  output := ⟨"song.pdf"⟩
  logPath := some ⟨"song.log"⟩
  verbose := false

/-- A page. -/
private def page (text : String) : ByteArray :=
  text.toUTF8

/-- A scene that shows a page. -/
private def showing (generation : Nat) (text : String) : Scene :=
  ⟨generation, some (page text), [], .succeeded, .editorAndPreview, .unsaved "Untitled-1"⟩

open Scheduler in
/-- A song is rendered twice, with a notice and a cleared log after the second page. -/
private def twice : List Turn :=
  [.event 0 (.edit ⟨"[C]I heard", {}, .unsaved "Untitled-1"⟩), .timer 300,
    .answer ⟨1, .success (page "one"), []⟩, .event 400 .refresh, .timer 700,
    .answer ⟨2, .success (page "two"), []⟩, .event 800 .clearLog]

/-- The observer sees both pages, and the second once more with its log cleared. Another file
comes in between. -/
private def glances : List Moment :=
  [.look (showing 1 "one"),
    .change (desk [(["song.pdf", "songs"], .file (page "one") false),
      (["notes.txt", "songs"], .file (page "capo 2") false)]),
    .look (showing 2 "two"), .look (showing 2 "two")]

open Scheduler in
/-- Of the scenes of a song that is rendered twice, the observer misses those without a page. Both
pages are saved, each once, and the second is what is read at the end. -/
theorem second_page_in_file :
    (Scene.new (.unsaved "Untitled-1") .editorAndPreview).status ≠ .succeeded ∧
      (((Run.start (.new (.unsaved "Untitled-1") .editorAndPreview) 300).after twice).answers.map
        RenderResult.generation).Nodup ∧
      reader.seen = (0, .idle) ∧ (begin (desk []) reader).CalmAll ["song.pdf", "songs"] glances ∧
      ∃ w, (begin (desk []) reader).after glances = w ∧
        w.observed.Sublist
          ((Run.start (.new (.unsaved "Untitled-1") .editorAndPreview) 300).after twice).published ∧
        w.saved.map Scene.generation = [1, 2] ∧
        w.saved.Pairwise (fun earlier later => earlier.generation < later.generation) ∧
        w.machine.seen ⟨"song.pdf"⟩ = some (page "two") := by
  have hscene : (Scene.new (.unsaved "Untitled-1") .editorAndPreview).status ≠ .succeeded := by
    decide
  have hanswers : (((Run.start (.new (.unsaved "Untitled-1") .editorAndPreview) 300).after
      twice).answers.map RenderResult.generation).Nodup := by decide +kernel
  have hobserved : ((begin (desk []) reader).after glances).observed.Sublist
      ((Run.start (.new (.unsaved "Untitled-1") .editorAndPreview) 300).after twice).published := by
    decide +kernel
  have hcalm : (begin (desk []) reader).CalmAll ["song.pdf", "songs"] glances := by
    decide +kernel
  obtain ⟨-, -, hordered, hshown, -, -⟩ := output_follows_scene _ 300 twice (desk []) reader
    ["song.pdf", "songs"] glances rfl hscene hanswers rfl hobserved hcalm
  have hlast : ((begin (desk []) reader).after glances).observed.getLast? =
      some (showing 2 "two") := by decide +kernel
  have hleads : ((begin (desk []) reader).after glances).machine.tree.locate
      ((begin (desk []) reader).after glances).machine.workDir ⟨"song.pdf"⟩ =
        .ok ["song.pdf", "songs"] := by decide +kernel
  have hgenerations : ((begin (desk []) reader).after glances).saved.map Scene.generation =
      [1, 2] := by decide +kernel
  exact ⟨hscene, hanswers, rfl, hcalm, _, rfl, hobserved, hgenerations, hordered,
    (hshown _ hlast rfl).2 _ hleads⟩

end Watching

end SongPreview
