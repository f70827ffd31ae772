import SongPreview.Machine.Saving
import SongPreview.Proofs.Machine.Directories

/-!
# What writing in place does to the files

A file that is written touches no place but the one that was opened, and so a log touches no
place but its own. A temporary file is made where nothing is.
-/

namespace SongPreview

namespace Machine

variable {m m' : Machine} {source place out : Location} {p : Path}

/-- A temporary file is made under a temporary name, where nothing is. -/
theorem makeTemp_ok {dir temp : Path} {ending : String}
    (h : m.makeTemp dir ending = .ok (place, temp, m')) :
    m.tree.get? place = none ∧ (∃ n, temp = dir.join ⟨tempName ending n⟩) ∧
      m.tree.locate m.workDir temp = .ok place ∧
      m' = m.withTree (m.tree.put place (.file .empty false)) := by
  rw [makeTemp] at h
  split at h
  · cases h
  next n hfree =>
    split at h
    · cases h
    next there hlocate =>
      split at h
      · cases h
      obtain ⟨rfl, rfl, rfl⟩ : there = place ∧ _ = temp ∧ _ = m' := by simpa using h
      refine ⟨?_, ⟨n, rfl⟩, hlocate, rfl⟩
      have hnot : m.exists? (dir.join ⟨tempName ending n⟩) = false := by
        simpa using List.find?_some hfree
      cases hentry : m.tree.get? there with
      | none => rfl
      | some entry =>
        rw [exists?, isOk_iff.mpr ⟨_, find_ok_iff.mpr ⟨hlocate, hentry⟩⟩] at hnot
        cases hnot

/-- The place that writing to a path changes, if it changes any. -/
def opened? (m : Machine) (p : Path) : Option Location :=
  match m.openEmpty p with
  | .ok (some (place, _), _) => some place
  | _ => none

/-- A path can be written to, and what is written is lost, as with a device. -/
def Loses (m : Machine) (p : Path) : Prop :=
  (m.openEmpty p).map Prod.fst = .ok none

instance (m : Machine) (p : Path) : Decidable (m.Loses p) :=
  inferInstanceAs (Decidable (_ = _))

/-- Opening a file empties it and touches nothing else. No way goes on through the file. -/
theorem openEmpty_cases {opened : Option (Location × Bool)}
    (h : m.openEmpty p = .ok (opened, m')) :
    match opened with
    | some (place, executable) =>
      m.tree.Blocks place ∧ m' = m.withTree (m.tree.put place (.file .empty executable))
    | none => m' = m := by
  obtain ⟨last, -, h⟩ := bind_eq_ok.mp h
  split at h
  · exact absurd h throw_ne_ok
  · exact absurd h throw_ne_ok
  · simp only at h
    split at h
    · obtain ⟨_, hthrow, -⟩ := bind_eq_ok.mp h
      exact absurd hthrow throw_ne_ok
    · obtain ⟨place, -, h⟩ := bind_eq_ok.mp h
      have hemptied {executable : Bool} {after : Option (Location × Bool) × Machine}
          (h : (m.permit (.openFile place) >>= fun _ => pure (some (place, executable),
            m.withTree (m.tree.put place (.file .empty executable)))) = .ok after) :
          after = (some (place, executable),
            m.withTree (m.tree.put place (.file .empty executable))) := by
        obtain ⟨_, -, h⟩ := bind_eq_ok.mp h
        exact (Except.ok.inj h).symm
      split at h
      · next hnone =>
        obtain ⟨rfl, rfl⟩ := Prod.mk.inj (hemptied h)
        exact ⟨Tree.blocks_of_none hnone, rfl⟩
      · next hfile =>
        obtain ⟨rfl, rfl⟩ := Prod.mk.inj (hemptied h)
        exact ⟨Tree.blocks_of_file hfile, rfl⟩
      · next htool =>
        obtain ⟨rfl, rfl⟩ := Prod.mk.inj (hemptied h)
        exact ⟨by simp [Tree.Blocks, htool], rfl⟩
      · exact absurd h throw_ne_ok
      · obtain ⟨rfl, rfl⟩ := Prod.mk.inj (Except.ok.inj h)
        rfl

/-! ### Where something has changed -/

/-- At most what stands at one place has changed, apart from new directories. -/
structure ChangedAt (place? : Option Location) (m m' : Machine) : Prop where
  /-- What paths led to, they lead to still. -/
  found : ∀ p found, m.find p = .ok found → place? ≠ some found.1 → m'.find p = .ok found
  held : ∀ q, place? ≠ some q → m'.tree.held? q = m.tree.held? q

theorem ChangedAt.refl (place? : Option Location) (m : Machine) : ChangedAt place? m m :=
  ⟨fun _ _ hfound _ => hfound, fun _ _ => rfl⟩

theorem ChangedAt.trans {place? : Option Location} {m'' : Machine} (h : ChangedAt place? m m')
    (h' : ChangedAt place? m' m'') : ChangedAt place? m m'' where
  found p found hfound hne := h'.found p found (h.found p found hfound hne) hne
  held q hne := (h'.held q hne).trans (h.held q hne)

theorem MadeAmong.changedAt {dirs : List Path} (h : MadeAmong dirs m m')
    (place? : Option Location) : ChangedAt place? m m' where
  found _ _ hfound _ := h.find hfound
  held q _ := h.held q

/-- A file where no way goes on changes nothing beside it. -/
theorem changedAt_put (hblocks : m.tree.Blocks place) (content : ByteArray) (executable : Bool) :
    ChangedAt (some place) m (m.withTree (m.tree.put place (.file content executable))) where
  found := by
    rintro p ⟨q, entry⟩ hfound hne
    have hq : q ≠ place := fun heq => hne (congrArg some heq.symm)
    obtain ⟨hlocate, hentry⟩ := find_ok_iff.mp hfound
    obtain ⟨hcheck, hway⟩ := Tree.locate_ok_iff.mp hlocate
    have hsame : (m.tree.put place (.file content executable)).SameWays m.tree place :=
      Tree.sameWays_put.symm
    have hleads := (hway.of_sameWays hsame hblocks).resolve_left fun hend => hq hend.1
    refine find_ok_iff.mpr ⟨Tree.locate_ok_iff.mpr ⟨hcheck, hleads⟩, ?_⟩
    exact (Tree.get?_put_of_ne hq).trans hentry
  held q hne := Tree.held?_put_of_ne fun heq => hne (congrArg some heq.symm)

end Machine

namespace Action

variable {m m' : Machine} {p : Path} {place q : Location} {content : ByteArray}

/-- What is poured as a whole is what the file holds. -/
theorem pour_ok {executable : Bool} (h : pour place executable content m = (.ok (), m')) :
    m' = m.withTree (m.tree.put place (.file content executable)) := by
  rw [pour] at h
  split at h
  · cases (Prod.mk.inj h).1
  · exact (Prod.mk.inj h).2.symm
  · split at h
    · exact (Prod.mk.inj h).2.symm
    · cases (Prod.mk.inj h).1

/-- However much of it fits, what is poured stays in its place. -/
theorem pour_file (place : Location) (executable : Bool) (content : ByteArray) (m : Machine) :
    ∃ kept, (pour place executable content
      (m.withTree (m.tree.put place (.file .empty executable)))).2 =
        m.withTree (m.tree.put place (.file kept executable)) := by
  have hhold (kept : ByteArray) : (m.tree.put place (.file .empty executable)).put place
      (.file kept executable) = m.tree.put place (.file kept executable) := Tree.put_put ..
  rw [pour]
  split
  · exact ⟨_, rfl⟩
  · exact ⟨content, congrArg m.withTree (hhold _)⟩
  · split
    · exact ⟨content, congrArg m.withTree (hhold _)⟩
    · exact ⟨_, congrArg m.withTree (hhold _)⟩

/-- Writing changes at most the file at the place that is opened. -/
theorem changedAt_write (p : Path) (content : ByteArray) (m : Machine) :
    Machine.ChangedAt (m.opened? p) m (write p content m).2 := by
  rw [write, Machine.opened?]
  rcases hopen : m.openEmpty p with fault | ⟨_ | ⟨place, executable⟩, after⟩
  · exact .refl none m
  · have hsame : after = m := Machine.openEmpty_cases hopen
    simp only [hsame]
    exact .refl none m
  · obtain ⟨hblocks, rfl⟩ := Machine.openEmpty_cases hopen
    obtain ⟨kept, hkept⟩ := pour_file place executable content m
    simp only [hkept]
    exact Machine.changedAt_put hblocks kept executable

/-- What was written as a whole is what the file holds, unless it is lost. -/
theorem write_ok (h : write p content m = (.ok (), m')) :
    m'.Loses p ∨ ∃ place executable, m.opened? p = some place ∧
      m'.tree.get? place = some (.file content executable) := by
  rw [Machine.opened?]
  rw [write] at h
  split at h
  · cases (Prod.mk.inj h).1
  · next after hopened =>
    obtain rfl : after = m := Machine.openEmpty_cases hopened
    obtain rfl := (Prod.mk.inj h).2
    exact .inl (congrArg (Except.map Prod.fst) hopened)
  · next place executable after hopened =>
    obtain ⟨hblocks, rfl⟩ := Machine.openEmpty_cases hopened
    obtain rfl := pour_ok h
    rw [hopened]
    exact .inr ⟨place, executable, rfl, Tree.get?_put_self hblocks.ne_nil⟩

end Action

namespace Saving

variable {m m' : Machine} {p dir : Path} {content : ByteArray}

theorem bind_apply {α β : Type} (x : Saving α) (f : α → Saving β) (m : Machine) :
    (x >>= f) m =
      match x m with
      | (.ok a, m) => f a m
      | (.error fault, m) => (.error fault, m) := by
  show ExceptT.bind x f m = _
  simp only [ExceptT.bind, ExceptT.mk, bind, StateT.bind]
  rcases x m with ⟨_ | _, _⟩ <;> rfl

/-- Naming the fault of an action changes nothing of what it does. -/
theorem snd_of {α : Type} (name : Fault → SaveFault) (action : Action α) (m : Machine) :
    (of name action m).2 = (action m).2 := by
  rw [of]
  rcases action m with ⟨_ | _, _⟩ <;> rfl

/-- Makes the directory of a log, unless it is the one that the program works in. -/
def makeParent (p : Path) : Saving Unit :=
  match p.parent? with
  | some dir =>
    if dir.text ≠ "" then of (SaveFault.directory dir) (Action.makeDirs dir) else pure ()
  | none => pure ()

theorem writeLog_eq (p : Path) (log : List Diagnostic) :
    writeLog p log = makeParent p >>= fun _ =>
      of (SaveFault.log p) (Action.write p (Diagnostic.formatLog log).toUTF8) := by
  rw [writeLog, makeParent]
  cases p.parent? with
  | none => rfl
  | some dir =>
    simp only
    split <;> rfl

theorem madeAmong_makeParent (p : Path) (m : Machine) :
    ∃ dirs, Machine.MadeAmong dirs m (makeParent p m).2 := by
  rw [makeParent]
  cases p.parent? with
  | none => exact ⟨[], .refl [] m⟩
  | some dir =>
    by_cases htext : dir.text = ""
    · simp only [htext, ne_eq, not_true_eq_false, if_false]
      exact ⟨[], .refl [] m⟩
    · simp only [ne_eq, htext, not_false_eq_true, if_true]
      rw [snd_of]
      exact ⟨_, Action.madeAmong_makeNested _ m⟩

/-- The place that the log of a scene goes to, if it goes to any. -/
def logPlace? (p : Path) (m : Machine) : Option Location :=
  match makeParent p m with
  | (.ok (), m) => m.opened? p
  | (.error _, _) => none

/-- A log changes at most the file at its own place. -/
theorem changedAt_writeLog (p : Path) (log : List Diagnostic) (m : Machine) :
    Machine.ChangedAt (logPlace? p m) m (writeLog p log m).2 := by
  obtain ⟨dirs, hparent⟩ := madeAmong_makeParent p m
  rw [writeLog_eq, bind_apply, logPlace?]
  rcases hmade : makeParent p m with ⟨fault | ⟨⟩, after⟩
  · rw [hmade] at hparent
    exact hparent.changedAt none
  · rw [hmade] at hparent
    simp only [snd_of]
    exact (hparent.changedAt _).trans (Action.changedAt_write p _ after)

/-- A log that was written is what its file holds, unless it is lost. -/
theorem writeLog_ok {log : List Diagnostic} (h : writeLog p log m = (.ok (), m')) :
    m'.Loses p ∨ ∃ place executable, logPlace? p m = some place ∧
      m'.tree.get? place = some (.file (Diagnostic.formatLog log).toUTF8 executable) := by
  rw [writeLog_eq, bind_apply] at h
  rw [logPlace?]
  split at h
  · next after hmade =>
    rw [hmade]
    rw [of] at h
    split at h
    · next written hwritten =>
      obtain ⟨-, rfl⟩ := Prod.mk.inj h
      exact Action.write_ok hwritten
    · cases (Prod.mk.inj h).1
  · cases (Prod.mk.inj h).1

end Saving

end SongPreview
