import SongPreview.Proofs.Machine.Directories

/-!
# How absolute paths are spelled

An absolute path begins with a slash, and its components are the root and then those of the pieces
between the slashes. Whatever is read from inside an absolute directory is absolute, and so are
the directories that hold an absolute path.
-/

namespace SongPreview.Path

variable {base p q : Path}

/-- An absolute path stays so however it goes on. -/
theorem isAbsolute_append {front : String} (h : Path.isAbsolute ⟨front⟩ = true) (rest : String) :
    Path.isAbsolute ⟨front ++ rest⟩ = true := by
  simp only [isAbsolute, beq_iff_eq, String.toList_append] at h ⊢
  rw [List.head?_append, h]
  rfl

theorem join_of_isAbsolute (h : p.isAbsolute = true) : base.join p = p :=
  if_pos h

theorem isAbsolute_join (h : base.isAbsolute = true) : (base.join p).isAbsolute = true := by
  rw [join]
  split
  · next habsolute => exact habsolute
  · split
    · exact isAbsolute_append h _
    · exact isAbsolute_append (isAbsolute_append h _) _

theorem exists_of_isAbsolute (h : p.isAbsolute = true) : ∃ text, p.text.toList = '/' :: text :=
  List.head?_eq_some_iff.mp (beq_iff_eq.mp h)

/-- The first component of an absolute path is the root, and the others are behind its slash. -/
theorem spans_of_text {text : List Char} (h : p.text.toList = '/' :: text) :
    p.spans = (.root, 1) :: (withEnds 1 (splitSlash text)).filterMap fun (piece, stop) =>
      (Component.ofPiece? piece).map fun c => (c, stop) := by
  have hsplit : splitSlash ('/' :: text) = [] :: splitSlash text := by simp [splitSlash]
  simp [spans, h, hsplit, splitSlash_ne_nil]

theorem le_of_mem_withEnds {start : Nat} {pieces : List (List Char)} {piece : List Char}
    {stop : Nat} (h : (piece, stop) ∈ withEnds start pieces) : start ≤ stop := by
  induction pieces generalizing start with
  | nil => cases h
  | cons first pieces ih =>
    rcases List.mem_cons.mp h with heq | hmem
    · obtain ⟨rfl, rfl⟩ := Prod.mk.inj heq
      exact Nat.le_add_right _ _
    · have := ih hmem
      omega

/-- An absolute path that is cut behind its first slash is absolute. -/
theorem isAbsolute_take (h : p.isAbsolute = true) {n : Nat} (hn : 1 ≤ n) :
    (p.take n).isAbsolute = true := by
  obtain ⟨text, htext⟩ := exists_of_isAbsolute h
  obtain ⟨n, rfl⟩ := Nat.exists_eq_add_of_le' hn
  simp [isAbsolute, take, htext]

/-- The directories that hold an absolute path are absolute. -/
theorem isAbsolute_parents (h : p.isAbsolute = true) : ∀ q ∈ p.parents, q.isAbsolute = true := by
  obtain ⟨text, htext⟩ := exists_of_isAbsolute h
  have hspans := spans_of_text htext
  have hends : ∀ span ∈ p.spans, 1 ≤ span.2 := by
    rw [hspans]
    intro span hspan
    rcases List.mem_cons.mp hspan with rfl | hspan
    · exact Nat.le_refl 1
    · obtain ⟨⟨piece, stop⟩, hmem, hpiece⟩ := List.mem_filterMap.mp hspan
      obtain ⟨c, -, rfl⟩ := Option.map_eq_some_iff.mp hpiece
      exact le_of_mem_withEnds hmem
  intro q hq
  rw [parents] at hq
  split at hq
  · cases hq
  · next first stop rest hparents =>
    obtain ⟨rfl, -⟩ := Prod.mk.inj (List.cons.inj (hparents.symm.trans hspans)).1
    rw [if_pos rfl, List.append_nil] at hq
    obtain ⟨span, hspan, rfl⟩ := List.mem_map.mp hq
    have hmem : span ∈ p.spans := hparents ▸ List.dropLast_subset _ (List.mem_reverse.mp hspan)
    exact isAbsolute_take h (hends span hmem)

end SongPreview.Path
