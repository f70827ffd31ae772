import SongPreview.Proofs.Machine.Transient

/-!
# Replacing a file at once

A page is written beside its place and then moved there. So whichever step fails, the file that was
there is not touched, and nothing stays of the page; and when no step fails, the page is all that is
new. Missing directories on the way to the place stay made in both cases.
-/

namespace SongPreview

namespace Tree

variable {t t' : Tree} {workDir place q temp out : Location} {entry : Entry} {p : Path}
  {content : ByteArray} {executable : Bool}

/-- A path that names a place in a tree where one place is blocked names it in every tree that
differs at this place only. -/
theorem Names.of_sameWays (hsame : t.SameWays t' q) (hblocks : t'.Blocks q)
    (h : Names t' workDir p place) : Names t workDir p place := by
  obtain ⟨hcheck, hsteps, hshort, hway⟩ := h
  obtain ⟨hdir, -⟩ := hway.directory rfl
  rcases hway.of_sameWays hsame hblocks with ⟨hend, -⟩ | hway
  · exact absurd (hend ▸ hdir) hblocks.1
  · exact .intro hcheck hsteps hshort hway

/-- A file where nothing was changes nothing of what paths name. -/
theorem names_put_iff (hfree : t.get? temp = none) :
    Names (t.put temp (.file content executable)) workDir p place ↔ Names t workDir p place := by
  have hblocks : t.Blocks temp := blocks_of_none hfree
  have hblocks' : (t.put temp (.file content executable)).Blocks temp :=
    blocks_of_file (get?_put_self hblocks.ne_nil)
  exact ⟨.of_sameWays sameWays_put hblocks', .of_sameWays sameWays_put.symm hblocks⟩

/-- After a file was put at a place, a path that names the place leads there or nowhere. -/
theorem Names.eq_of_locate_put (h : Names t workDir p place)
    (hout : (t.put place (.file content executable)).locate workDir p = .ok out) :
    out = place := by
  obtain @⟨front, name, directory, -, hsteps, -, hway⟩ := h
  have hblocks : (t.put (name :: directory) (.file content executable)).Blocks
      (name :: directory) := blocks_of_file (get?_put_self (List.cons_ne_nil _ _))
  obtain ⟨-, hout⟩ := locate_ok_iff.mp hout
  obtain ⟨directory', left, hdir, hlast, hback⟩ := hout.split hsteps
  rcases (hback (List.cons_ne_nil _ _) (.stay hdir .stop)).of_sameWays sameWays_put hblocks with
    ⟨hend, -⟩ | hleads
  · exact absurd (hend ▸ hdir) hblocks.1
  · obtain rfl := Except.ok.inj ((walk_of_leads hleads).symm.trans (walk_of_leads hway))
    cases hlast with
    | link _ _ there => exact absurd there (hblocks.2 _)
    | name _ _ _ _ onward =>
      cases onward
      rfl

end Tree

namespace Machine

variable {m m' : Machine} {source place temp : Location} {p : Path} {content kept : ByteArray}

/-- A file is moved to the place that a path names. -/
theorem replace_ok (h : m.replace source p = .ok m') :
    ∃ place entry, m.named? p = some place ∧ m.tree.get? place ≠ some .directory ∧
      m.tree.get? source = some entry ∧
      m' = m.withTree ((m.tree.erase source).put place entry) := by
  obtain ⟨last, hlast, h⟩ := bind_eq_ok.mp h
  cases hstep : last.step with
  | stay => rw [hstep] at h; exact absurd h throw_ne_ok
  | up => rw [hstep] at h; exact absurd h throw_ne_ok
  | name name =>
    rw [hstep] at h
    obtain ⟨place, hplace, h⟩ := bind_eq_ok.mp h
    obtain ⟨rfl, hshort⟩ := Tree.eq_of_walk_last hplace
    cases hslash : last.slash with
    | true =>
      simp only [hslash, if_true] at h
      obtain ⟨_, hthrow, -⟩ := bind_eq_ok.mp h
      exact absurd hthrow throw_ne_ok
    | false =>
      have hnamed : m.named? p = some (name :: last.directory) := by
        obtain ⟨directory, step, slash⟩ := last
        obtain ⟨rfl, rfl⟩ : step = .name name ∧ slash = false := ⟨hstep, hslash⟩
        simp [named?, hlast, hshort]
      simp only [hslash, Bool.false_eq_true, if_false] at h
      split at h
      · exact absurd h throw_ne_ok
      · exact absurd h throw_ne_ok
      · next entry hentry hnot =>
        obtain ⟨_, -, h⟩ := bind_eq_ok.mp h
        exact ⟨_, entry, hnamed, hnot, hentry, (Except.ok.inj h).symm⟩

theorem named?_put (hfree : m.tree.get? temp = none) :
    (m.withTree (m.tree.put temp (.file kept false))).named? p = m.named? p := by
  refine Option.ext fun place => ?_
  rw [named?_eq_some_iff, named?_eq_some_iff]
  exact Tree.names_put_iff hfree

/-- A file that was put at the place that a path names is read by the path, unless the way of the
path goes through a link that stood there. -/
theorem read_put_named (hnamed : m.named? p = some place)
    (hplace : m.tree.get? place ≠ some .directory) :
    (m.withTree (m.tree.put place (.file content false))).read p = .ok content ∨
      (∃ target, m.tree.get? place = some (.link target)) ∧ (m.remove place).named? p = none := by
  rw [named?_eq_some_iff] at hnamed
  have hne : place ≠ [] := by
    rintro rfl
    exact hplace rfl
  have hfile : (m.tree.put place (.file content false)).get? place = some (.file content false) :=
    Tree.get?_put_self hne
  have herased : (m.tree.erase place).Blocks place :=
    Tree.blocks_of_none (Tree.get?_erase_self hne)
  have hremove : m.remove place = m.withTree (m.tree.erase place) := by
    rw [remove, if_neg hplace]
  cases hwithout : (m.remove place).named? p with
  | some q =>
    left
    rw [named?_eq_some_iff, hremove] at hwithout
    -- the way to the place is one that leaves the place aside
    obtain rfl : q = place := (hwithout.of_sameWays Tree.sameWays_erase herased).unique hnamed
    have hsame : (m.tree.put q (.file content false)).SameWays (m.tree.erase q) q :=
      fun r hr => .inl ((Tree.get?_put_of_ne hr).trans (Tree.get?_erase_of_ne hr).symm)
    have hlocate := (hwithout.of_sameWays hsame herased).locate (by simp [hfile])
    exact seen_eq_some.mp (seen_of_file hlocate hfile)
  | none =>
    right
    refine ⟨?_, rfl⟩
    by_contra hlink
    have hblocks : m.tree.Blocks place := ⟨hplace, fun target h => hlink ⟨target, h⟩⟩
    have hnamed' := hnamed.of_sameWays Tree.sameWays_erase.symm hblocks
    rw [hremove, named?_eq_some_iff.mpr hnamed'] at hwithout
    cases hwithout

end Machine

namespace Saving

variable {m after : Machine} {dir p : Path} {content : ByteArray}

/-- Where the page cannot be moved to its place, everything is as it was. -/
theorem replaceFrom_error {fault : SaveFault}
    (h : replaceFrom dir p content m = (.error fault, after)) : after = m := by
  rw [replaceFrom] at h
  split at h
  · exact (Prod.mk.inj h).2.symm
  next temp path made hmade =>
    obtain ⟨hfree, -, -, rfl⟩ := Machine.makeTemp_ok hmade
    obtain ⟨kept, hkept⟩ := Action.pour_file temp false content m
    split at h
    next fault poured hpoured =>
      rw [hpoured] at hkept
      obtain rfl := hkept
      exact (Prod.mk.inj h).2.symm.trans (Machine.remove_put hfree kept false)
    next poured hpoured =>
      rw [hpoured] at hkept
      obtain rfl := hkept
      split at h
      · exact (Prod.mk.inj h).2.symm.trans (Machine.remove_put hfree kept false)
      · cases (Prod.mk.inj h).1

/-- A page that was moved to its place is all that is new. -/
theorem replaceFrom_ok (h : replaceFrom dir p content m = (.ok (), after)) :
    ∃ place, m.named? p = some place ∧ m.tree.get? place ≠ some .directory ∧
      after = m.withTree (m.tree.put place (.file content false)) := by
  rw [replaceFrom] at h
  split at h
  · cases h
  next temp path made hmade =>
    obtain ⟨hfree, -, -, rfl⟩ := Machine.makeTemp_ok hmade
    have htemp : temp ≠ [] := (Tree.blocks_of_none hfree).ne_nil
    split at h
    · cases h
    next poured hpoured =>
      obtain rfl := Action.pour_ok hpoured
      have hput : (m.tree.put temp (.file .empty false)).put temp (.file content false) =
        m.tree.put temp (.file content false) := Tree.put_put ..
      split at h
      · cases h
      next moved hmoved =>
        obtain rfl := (Prod.mk.inj h).2
        obtain ⟨place, entry, hnamed, hplace, hentry, rfl⟩ := Machine.replace_ok hmoved
        simp only [Machine.withTree, hput] at hnamed hplace hentry ⊢
        rw [Tree.get?_put_self htemp] at hentry
        obtain rfl := Option.some.inj hentry
        refine ⟨place, (Machine.named?_put hfree).symm.trans hnamed, ?_, ?_⟩
        · by_cases hwhere : place = temp
          · rw [hwhere, hfree]
            exact (Option.some_ne_none _).symm
          · rwa [Tree.get?_put_of_ne hwhere] at hplace
        · rw [Tree.erase_put hfree]

/-- The directory of a path and all that hold it, which are made where they are missing. -/
def ancestors (p : Path) : List Path :=
  directoryOf p :: (directoryOf p).parents

/-- The files once the directories of a path were made, as far as they could be. -/
def madeFor (p : Path) (m : Machine) : Machine :=
  (Action.makeNested (ancestors p) m).2

theorem madeAmong_madeFor (p : Path) (m : Machine) :
    Machine.MadeAmong (ancestors p) m (madeFor p m) :=
  Action.madeAmong_makeNested _ m

/-- The place that a page goes to, if it goes to any. -/
def pagePlace? (p : Path) (m : Machine) : Option Location :=
  (madeFor p m).named? p

/-- Where saving failed, nothing was made but directories. -/
theorem replace_error {fault : SaveFault} (h : replace p content m = (.error fault, after)) :
    after = madeFor p m := by
  have hmade := snd_of (SaveFault.directory (directoryOf p)) (Action.makeDirs (directoryOf p)) m
  rw [replace, bind_apply] at h
  split at h
  · next made hdirs =>
    rw [hdirs] at hmade
    exact (replaceFrom_error h).trans hmade
  · next made hdirs =>
    rw [hdirs.trans h] at hmade
    exact hmade

/-- Where it did not fail, the page was put at its place, too. -/
theorem replace_ok (h : replace p content m = (.ok (), after)) :
    ∃ place, pagePlace? p m = some place ∧ (madeFor p m).tree.get? place ≠ some .directory ∧
      after = (madeFor p m).withTree ((madeFor p m).tree.put place (.file content false)) := by
  have hmade := snd_of (SaveFault.directory (directoryOf p)) (Action.makeDirs (directoryOf p)) m
  rw [replace, bind_apply] at h
  split at h
  · next made hdirs =>
    rw [hdirs] at hmade
    obtain rfl : made = madeFor p m := hmade
    exact replaceFrom_ok h
  · cases h

/-- A page that was saved stands where its path leads, if the path leads anywhere. -/
theorem eq_of_replace (h : replace p content m = (.ok (), after)) :
    ∃ place, after.tree.get? place = some (.file content false) ∧
      ∀ out, after.tree.locate after.workDir p = .ok out → out = place := by
  obtain ⟨place, hnamed, hplace, rfl⟩ := replace_ok h
  refine ⟨place, Tree.get?_put_of_not_directory hplace, fun out hout => ?_⟩
  exact (Machine.named?_eq_some_iff.mp hnamed).eq_of_locate_put hout

/-- **All or nothing.** For all files, every path and every page, whichever changes the system
refuses and however little it lets a file hold: at most missing directories of the path are made,
and what any path led to before, it leads to with them. Where saving failed, this is all. Where it
did not fail, the page is new, too, and nothing else: it stands at the place that the path names.
The path leads to it, unless it goes through a link that stood at this place itself. -/
theorem replaced_or_untouched (p : Path) (content : ByteArray) (m : Machine) :
    Machine.MadeAmong (ancestors p) m (madeFor p m) ∧
    (∀ q found, m.find q = .ok found → (madeFor p m).find q = .ok found) ∧
    (∀ fault after, replace p content m = (.error fault, after) → after = madeFor p m) ∧
    ∀ after, replace p content m = (.ok (), after) →
      ∃ place, (madeFor p m).named? p = some place ∧
        (madeFor p m).tree.get? place ≠ some .directory ∧
        after = (madeFor p m).withTree ((madeFor p m).tree.put place (.file content false)) ∧
        (after.read p = .ok content ∨
          (∃ target, (madeFor p m).tree.get? place = some (.link target)) ∧
            ((madeFor p m).remove place).named? p = none) := by
  have hmade := madeAmong_madeFor p m
  refine ⟨hmade, fun q found hfound => hmade.find hfound, fun fault after => replace_error, ?_⟩
  intro after hreplace
  obtain ⟨place, hnamed, hplace, rfl⟩ := replace_ok hreplace
  exact ⟨place, hnamed, hplace, rfl, Machine.read_put_named hnamed hplace⟩

/-- A machine with a page, a path that is a link to it, and a link to a directory. -/
private def pageRoom : Machine where
  tree := ⟨[(["songs"], .directory), (["song.pdf", "songs"], .file "old".toUTF8 false),
    (["last.pdf", "songs"], .link ⟨"song.pdf"⟩), (["new", "songs"], .directory),
    (["out", "songs"], .link ⟨"new"⟩)]⟩
  workDir := ["songs"]
  home := ⟨"/home"⟩
  tempDir := ⟨"/tmp"⟩
  searchPath := []
  time := 0

/-- A page takes the place of a link and leaves the file alone that the link led to. -/
example :
    let after := (replace ⟨"last.pdf"⟩ "page".toUTF8 pageRoom).2
    after.seen ⟨"last.pdf"⟩ = some "page".toUTF8 ∧ after.seen ⟨"song.pdf"⟩ = some "old".toUTF8 := by
  decide +kernel

/-- The way to the page can be lost with a link that it goes through. -/
example :
    let saved := replace ⟨"out/../out"⟩ "page".toUTF8 pageRoom
    saved.1.isOk = true ∧ saved.2.seen ⟨"out/../out"⟩ = none ∧
      saved.2.seen ⟨"out"⟩ = some "page".toUTF8 := by
  decide +kernel

/-- The machine with a disk that takes three bytes. -/
private def fullRoom : Machine :=
  { pageRoom with sizeLimit := some 3 }

/-- A page that is too large for the disk leaves the old one, and new directories. -/
theorem large_page_leaves_old :
    ∃ fault after, replace ⟨"deep/../song.pdf"⟩ "page".toUTF8 fullRoom = (.error fault, after) ∧
      Machine.MadeAmong [⟨"deep/.."⟩, ⟨"deep"⟩, ⟨""⟩] fullRoom after ∧
      after.find ⟨"song.pdf"⟩ = .ok (["song.pdf", "songs"], .file "old".toUTF8 false) := by
  have hfails : (replace ⟨"deep/../song.pdf"⟩ "page".toUTF8 fullRoom).1.isOk = false := by
    decide +kernel
  have hancestors : ancestors ⟨"deep/../song.pdf"⟩ = [⟨"deep/.."⟩, ⟨"deep"⟩, ⟨""⟩] := by decide
  have hold : fullRoom.find ⟨"song.pdf"⟩ =
      .ok (["song.pdf", "songs"], .file "old".toUTF8 false) := rfl
  obtain ⟨hmade, hkept, herror, -⟩ :=
    replaced_or_untouched ⟨"deep/../song.pdf"⟩ "page".toUTF8 fullRoom
  rcases hreplace : replace ⟨"deep/../song.pdf"⟩ "page".toUTF8 fullRoom with ⟨fault | ⟨⟩, after⟩
  · refine ⟨fault, after, rfl, ?_, ?_⟩
    · rw [herror fault after hreplace, ← hancestors]
      exact hmade
    · rw [herror fault after hreplace]
      exact hkept _ _ hold
  · rw [hreplace] at hfails
    cases hfails

end Saving

end SongPreview
