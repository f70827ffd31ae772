import SongPreview.Child
import SongPreview.Proofs.Machine.Saving

/-!
# Transient files

A transient file stands where nothing was, and no program can be started from it. So nothing
changes for any other path: directories and programs are found as they were. Its own path leads
to it, and the path shows with which ending its name was made. When it is taken away, nothing has
happened.
-/

namespace SongPreview

namespace Path

variable {base p q : Path}

theorem eq_of_text_eq (h : p.text = q.text) : p = q := by
  cases p
  cases q
  rw [mk.injEq]
  exact h

theorem join_of_not_isAbsolute (hp : p.isAbsolute = false) :
    base.join p =
      ⟨base.text ++ (if base.text = "" ∨ base.text.toList.getLast? = some '/' then "" else "/") ++
        p.text⟩ := by
  rw [join, if_neg (by simp [hp])]
  split <;> simp

/-- Inside one directory, a path is told from every other one. -/
theorem join_inj (hp : p.isAbsolute = false) (hq : q.isAbsolute = false) :
    base.join p = base.join q ↔ p = q := by
  refine ⟨fun h => ?_, congrArg _⟩
  rw [join_of_not_isAbsolute hp, join_of_not_isAbsolute hq, mk.injEq] at h
  exact eq_of_text_eq (by simpa using h)

end Path

namespace Tree

variable {t : Tree} {place out workDir : Location} {content : ByteArray} {executable : Bool}
  {p : Path} {entry : Entry}

/-- A file where nothing was changes no way. -/
theorem locate_put_iff (hfree : t.get? place = none) :
    (t.put place (.file content executable)).locate workDir p = .ok out ↔
      t.locate workDir p = .ok out := by
  have hblocks : t.Blocks place := blocks_of_none hfree
  have hblocks' : (t.put place (.file content executable)).Blocks place :=
    blocks_of_file (get?_put_self hblocks.ne_nil)
  rw [locate_ok_iff, locate_ok_iff]
  refine and_congr_right fun _ => ⟨fun h => ?_, fun h => ?_⟩
  · exact (h.of_sameWays sameWays_put hblocks').resolve_left fun hend => hend.2 hblocks
  · exact (h.of_sameWays sameWays_put.symm hblocks).resolve_left fun hend => hend.2 hblocks'

/-- What was put where nothing was can be taken away again. -/
theorem erase_put (hfree : t.get? place = none) : (t.put place entry).erase place = t := by
  have hplace : place ≠ [] := (blocks_of_none hfree).ne_nil
  rw [get?, if_neg hplace, List.lookup_eq_none_iff] at hfree
  have hothers : t.entries.filter (fun e => e.1 ≠ place) = t.entries := by
    refine List.filter_eq_self.mpr fun e he => ?_
    have hne : place ≠ e.1 := by simpa using hfree e he
    simpa using hne.symm
  rw [erase, put, List.filter_cons_of_neg (by simp), List.filter_filter]
  simp only [Bool.and_self, hothers]

end Tree

namespace Machine

variable {m : Machine} {place out : Location} {content : ByteArray} {entry : Entry} {p : Path}

/-- A temporary name shows its ending. -/
theorem tempName_ending {ending ending' : String} {n n' : Nat}
    (h : tempName ending n = tempName ending' n') : ending = ending' := by
  have hlist := congrArg String.toList h
  simp only [tempName, String.toList_append, String.toList_ofList, List.append_assoc,
    List.append_cancel_left_eq] at hlist
  have hlength : (tempLetters n).length = (tempLetters n').length := rfl
  exact String.toList_injective (List.append_inj_right hlist hlength)

theorem isAbsolute_tempName (ending : String) (n : Nat) :
    Path.isAbsolute ⟨tempName ending n⟩ = false := by
  simp [Path.isAbsolute, tempName]

/-- A temporary path shows its ending. -/
theorem tempPath_ending {dir : Path} {ending ending' : String} {n n' : Nat}
    (h : (dir.join ⟨tempName ending n⟩).text = (dir.join ⟨tempName ending' n'⟩).text) :
    ending = ending' := by
  have hpath := Path.eq_of_text_eq h
  rw [Path.join_inj (isAbsolute_tempName _ _) (isAbsolute_tempName _ _), Path.mk.injEq] at hpath
  exact tempName_ending hpath

/-- Whatever is found beside a file that was put where nothing was is found without it. -/
theorem find_put_iff (hfree : m.tree.get? place = none) (hentry : entry ≠ .file content false) :
    (m.withTree (m.tree.put place (.file content false))).find p = .ok (out, entry) ↔
      m.find p = .ok (out, entry) := by
  have hplace : place ≠ [] := (Tree.blocks_of_none hfree).ne_nil
  rw [find_ok_iff, find_ok_iff]
  refine and_congr (Tree.locate_put_iff hfree) ?_
  by_cases hout : out = place
  · subst hout
    rw [hfree]
    show (m.tree.put out (.file content false)).get? out = some entry ↔ _
    rw [Tree.get?_put_self hplace]
    simp [hentry.symm]
  · show (m.tree.put place (.file content false)).get? out = some entry ↔ _
    rw [Tree.get?_put_of_ne hout]

theorem isDirectory_iff : m.isDirectory p = true ↔ ∃ place, m.find p = .ok (place, .directory) := by
  rw [isDirectory]
  split
  · next found => exact ⟨fun _ => ⟨_, found⟩, fun _ => rfl⟩
  · next hother => exact ⟨nofun, fun ⟨_, hfound⟩ => absurd hfound (hother _)⟩

theorem isProgram_iff : m.isProgram p = true ↔
    ∃ place entry, m.find p = .ok (place, entry) ∧
      ((∃ content, entry = .file content true) ∨ ∃ name, entry = .tool name) := by
  rw [isProgram]
  split
  · next found => exact ⟨fun _ => ⟨_, _, found, .inl ⟨_, rfl⟩⟩, fun _ => rfl⟩
  · next found => exact ⟨fun _ => ⟨_, _, found, .inr ⟨_, rfl⟩⟩, fun _ => rfl⟩
  · next hfile htool =>
    refine ⟨nofun, ?_⟩
    rintro ⟨place, _, hfound, ⟨_, rfl⟩ | ⟨_, rfl⟩⟩
    · exact absurd hfound (hfile _ _)
    · exact absurd hfound (htool _ _)

theorem isDirectory_put (hfree : m.tree.get? place = none) (content : ByteArray) (p : Path) :
    (m.withTree (m.tree.put place (.file content false))).isDirectory p = m.isDirectory p := by
  rw [Bool.eq_iff_iff, isDirectory_iff, isDirectory_iff]
  exact exists_congr fun _ => find_put_iff hfree nofun

theorem isProgram_put (hfree : m.tree.get? place = none) (content : ByteArray) (p : Path) :
    (m.withTree (m.tree.put place (.file content false))).isProgram p = m.isProgram p := by
  rw [Bool.eq_iff_iff, isProgram_iff, isProgram_iff]
  refine exists_congr fun _ => exists_congr fun entry => and_congr_left fun hruns => ?_
  refine find_put_iff hfree ?_
  rcases hruns with ⟨_, rfl⟩ | ⟨_, rfl⟩
  · simp
  · simp

/-- A word names the same program, whatever transient file stands somewhere. -/
theorem findProgram_put (hfree : m.tree.get? place = none) (content : ByteArray) (word : String) :
    (m.withTree (m.tree.put place (.file content false))).findProgram word =
      m.findProgram word := by
  have hprogram := funext (isProgram_put hfree content)
  simp only [findProgram, hprogram]
  rfl

/-- The path of a transient file leads to it. -/
theorem read_put (hfree : m.tree.get? place = none)
    (hlocate : m.tree.locate m.workDir p = .ok place) (content : ByteArray) :
    (m.withTree (m.tree.put place (.file content false))).read p = .ok content := by
  have hplace : place ≠ [] := (Tree.blocks_of_none hfree).ne_nil
  rw [← seen_eq_some]
  exact seen_of_file ((Tree.locate_put_iff hfree).mpr hlocate) (Tree.get?_put_self hplace)

/-- A file that was put where nothing was is taken away without a trace. -/
theorem remove_put (hfree : m.tree.get? place = none) (kept : ByteArray) (executable : Bool) :
    (m.withTree (m.tree.put place (.file kept executable))).remove place = m := by
  have hfile : (m.tree.put place (.file kept executable)).get? place =
      some (.file kept executable) := Tree.get?_put_self (Tree.blocks_of_none hfree).ne_nil
  rw [remove]
  simp only [withTree, hfile, Option.some.injEq, reduceCtorEq, if_false, Tree.erase_put hfree]

theorem get?_remove_of_ne {q : Location} (h : q ≠ place) :
    (m.remove place).tree.get? q = m.tree.get? q := by
  rw [remove]
  by_cases hdir : m.tree.get? place = some .directory
  · simp only [hdir, if_true, withTree]
  · simp only [hdir, if_false, withTree, Tree.get?_erase_of_ne h]

end Machine

end SongPreview
