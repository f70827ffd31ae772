import SongPreview.Proofs.Diagnostic.Stripping

/-!
# Texts cut at their codes

Every text can be cut at its complete colour codes, so that no code stands in a piece between
them. Stripping puts the pieces together again without the codes. It works piece by piece wherever
a text is cut at codes, also where the piece in front ends with a code that was begun and not
finished.
-/

namespace SongPreview.Colour

variable {c : Char}

/-- A text that was cut: what stands in front, and every code with what stands behind it. -/
structure Cut where
  front : String
  coded : List (String × String)

namespace Cut

/-- The whole text. -/
def text (cut : Cut) : String :=
  cut.front ++ String.join (cut.coded.map fun (code, behind) => code ++ behind)

/-- The text between the codes, in order. -/
def pieces (cut : Cut) : List String :=
  cut.front :: cut.coded.map Prod.snd

/-- What the text was cut at are complete codes. -/
def AtCodes (cut : Cut) : Prop :=
  ∀ part ∈ cut.coded, IsCode part.1.toList

end Cut

/-! ### Stripping piece by piece -/

theorem stripString_append_code {code : String} (h : IsCode code.toList) (before after : String) :
    stripString (before ++ code ++ after) = stripString before ++ stripString after := by
  simp only [stripString, String.toList_append, strip_append_code h, String.ofList_append]

theorem stripString_eq_self_iff {s : String} : stripString s = s ↔ Plain s.toList := by
  rw [plain_iff_strip_eq, stripString, ← String.toList_inj, String.toList_ofList]

/-- A text that is cut at codes is stripped piece by piece. -/
theorem stripString_text {cut : Cut} (h : cut.AtCodes) :
    stripString cut.text = String.join (cut.pieces.map stripString) := by
  obtain ⟨front, coded⟩ := cut
  induction coded generalizing front with
  | nil => simp [Cut.text, Cut.pieces]
  | cons part coded ih =>
    obtain ⟨code, behind⟩ := part
    have hrest := ih behind fun part hpart => h part (List.mem_cons_of_mem _ hpart)
    have hcode : IsCode code.toList := h (code, behind) List.mem_cons_self
    calc stripString (Cut.text ⟨front, (code, behind) :: coded⟩)
        = stripString (front ++ code ++ Cut.text ⟨behind, coded⟩) := by
          simp [Cut.text, String.append_assoc]
      _ = stripString front ++ stripString (Cut.text ⟨behind, coded⟩) :=
          stripString_append_code hcode _ _
      _ = _ := by rw [hrest]; simp [Cut.pieces]

/-! ### Every text can be cut -/

/-- A character that begins no code joins a text without codes. -/
theorem Plain.cons_of_afterCode? {front rest : List Char} (h : Plain front)
    (hnone : afterCode? (c :: (front ++ rest)) = none) : Plain (c :: front) := by
  intro code hcode hinside
  rcases List.infix_cons_iff.mp hinside with ⟨after, heq⟩ | hlater
  · have hfound : afterCode? (c :: (front ++ rest)) = some (after ++ rest) := by
      rw [afterCode?_eq_some_iff]
      exact ⟨code, hcode, by rw [← List.cons_append, ← heq, List.append_assoc]⟩
    rw [hnone] at hfound
    cases hfound
  · exact h code hcode hlater

/-- Every text can be cut at codes so that none is left in a piece. -/
theorem exists_cut (s : List Char) : ∃ cut : Cut, cut.text.toList = s ∧ cut.AtCodes ∧
    ∀ piece ∈ cut.pieces, Plain piece.toList := by
  induction hn : s.length using Nat.strong_induction_on generalizing s with
  | _ n ih =>
    subst hn
    rcases code_or_char s with rfl | ⟨code, after, hcode, rfl⟩ | ⟨c, rest, rfl, hnone⟩
    · refine ⟨⟨"", []⟩, rfl, nofun, ?_⟩
      simpa [Cut.pieces] using plain_of_not_mem (List.not_mem_nil)
    · have hpos := List.length_pos_iff.mpr hcode.ne_nil
      obtain ⟨⟨front, coded⟩, rfl, hcodes, hplain⟩ :=
        ih _ (by rw [List.length_append]; omega) after rfl
      refine ⟨⟨"", (String.ofList code, front) :: coded⟩, ?_, ?_, ?_⟩
      · simp [Cut.text]
      · exact List.forall_mem_cons.mpr ⟨by rwa [String.toList_ofList], hcodes⟩
      · exact List.forall_mem_cons.mpr ⟨plain_of_not_mem (by simp), hplain⟩
    · obtain ⟨⟨front, coded⟩, rfl, hcodes, hplain⟩ := ih _ (by simp) rest rfl
      obtain ⟨hfront, hbehind⟩ := List.forall_mem_cons.mp hplain
      refine ⟨⟨String.ofList (c :: front.toList), coded⟩, ?_, hcodes, ?_⟩
      · simp [Cut.text]
      · refine List.forall_mem_cons.mpr ⟨?_, hbehind⟩
        rw [String.toList_ofList]
        rw [Cut.text, String.toList_append] at hnone
        exact hfront.cons_of_afterCode? hnone

/-- **Codes are deleted, and nothing else is.** A code between any two texts is deleted, and both
texts are stripped alone; so is every piece of a text that is cut at any number of codes. A text
is left as it is if and only if it holds no complete code. Every text can be cut at codes so that
no code is left in a piece, and then stripping gives the pieces as they are, in order: all other
characters are kept, those of unfinished and of other escape sequences as well. -/
theorem codes_alone_deleted :
    (∀ before code after : String, IsCode code.toList →
      stripString (before ++ code ++ after) = stripString before ++ stripString after) ∧
    (∀ cut : Cut, cut.AtCodes →
      stripString cut.text = String.join (cut.pieces.map stripString)) ∧
    (∀ s : String, stripString s = s ↔ Plain s.toList) ∧
    ∀ s : String, ∃ cut : Cut, cut.text = s ∧ cut.AtCodes ∧
      (∀ piece ∈ cut.pieces, Plain piece.toList) ∧ stripString s = String.join cut.pieces := by
  refine ⟨fun before code after hcode => stripString_append_code hcode before after,
    fun cut hcut => stripString_text hcut, fun s => stripString_eq_self_iff, fun s => ?_⟩
  obtain ⟨cut, htext, hcodes, hplain⟩ := exists_cut s.toList
  obtain rfl := String.toList_inj.mp htext
  have hpieces : cut.pieces.map stripString = cut.pieces := by
    rw [List.map_congr_left fun piece hpiece => stripString_eq_self_iff.mpr (hplain piece hpiece),
      List.map_id']
  exact ⟨cut, rfl, hcodes, hplain, by rw [stripString_text hcodes, hpieces]⟩

/-- The code behind an unfinished one is deleted. The unfinished one is kept, also where its end
follows now. -/
theorem unfinished_code_kept :
    IsCode "\x1b[0m".toList ∧
      stripString ("\x1b[3" ++ "\x1b[0m" ++ "1mverse") = "\x1b[31mverse" ∧
      stripString "\x1b[3" = "\x1b[3" ∧ Plain "\x1b[3".toList := by
  obtain ⟨hbetween, -, hkept, -⟩ := codes_alone_deleted
  have hcode : IsCode "\x1b[0m".toList := ⟨['0'], List.forall_mem_singleton.mpr rfl, rfl⟩
  have hfront : Plain "\x1b[3".toList := by decide +kernel
  have hbehind : Plain "1mverse".toList := by decide +kernel
  refine ⟨hcode, ?_, (hkept _).mpr hfront, hfront⟩
  rw [hbetween _ _ _ hcode, (hkept _).mpr hfront, (hkept _).mpr hbehind]
  rfl

end SongPreview.Colour
