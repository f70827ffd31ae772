import SongPreview.Document
import SongPreview.Proofs.Digest.Delimiting

/-!
# What a fingerprint names

As far as the digest tells the byte strings apart that it was given, fingerprints are equal
exactly where the texts, the arguments from the settings and the views are. Nothing else of a
document is in its fingerprint.
-/

namespace SongPreview

/-- No two different byte strings of a list have the same digest. -/
def Digest.CollisionFree (inputs : List ByteArray) : Prop :=
  ∀ a ∈ inputs, ∀ b ∈ inputs, Digest.of a = Digest.of b → a = b

instance Digest.decidableCollisionFree (inputs : List ByteArray) :
    Decidable (Digest.CollisionFree inputs) :=
  inferInstanceAs (Decidable (∀ a ∈ inputs, ∀ b ∈ inputs, Digest.of a = Digest.of b → a = b))

/-- All arguments of a rendering show those that come from the settings. -/
theorem Settings.renderArguments_eq_iff {s t : Settings} :
    (∀ input, s.renderArguments input = t.renderArguments input) ↔ s.arguments = t.arguments := by
  constructor
  · intro h
    have hstdin := h "-"
    rw [renderArguments, renderArguments, List.append_left_inj, List.append_right_inj] at hstdin
    exact hstdin
  · intro h input
    rw [renderArguments, renderArguments, h]

namespace Document

/-- The byte strings that are digested for the fingerprint. -/
def digested (d : Document) : List ByteArray :=
  [d.text.toUTF8, Digest.delimit (d.settings.arguments.map String.toUTF8)]

/-- Every argument is shorter than `2 ^ 64` bytes, as every text in a memory is. -/
def Addressable (d : Document) : Prop :=
  ∀ argument ∈ d.settings.arguments, argument.toUTF8.size < 2 ^ 64

instance decidableAddressable (d : Document) : Decidable d.Addressable :=
  inferInstanceAs (Decidable (∀ argument ∈ d.settings.arguments, argument.toUTF8.size < 2 ^ 64))

/-- The delimited arguments name the arguments. -/
theorem arguments_eq_of_delimit_eq {d e : Document} (hd : d.Addressable) (he : e.Addressable)
    (h : Digest.delimit (d.settings.arguments.map String.toUTF8) =
      Digest.delimit (e.settings.arguments.map String.toUTF8)) :
    d.settings.arguments = e.settings.arguments := by
  have hmap := Digest.delimit_injective (List.forall_mem_map.mpr hd) (List.forall_mem_map.mpr he) h
  exact (List.map_inj_right fun _ _ => String.toByteArray_inj.mp).mp hmap

/-- Equal fingerprints name equal texts, equal arguments and the same view. -/
theorem eq_of_fingerprint_eq {d e : Document} {p q : Pane} {inputs : List ByteArray}
    (hfree : Digest.CollisionFree inputs) (hd : ∀ bytes ∈ d.digested, bytes ∈ inputs)
    (he : ∀ bytes ∈ e.digested, bytes ∈ inputs) (hd' : d.Addressable) (he' : e.Addressable)
    (h : d.fingerprint p = e.fingerprint q) :
    d.text = e.text ∧ d.settings.arguments = e.settings.arguments ∧ p = q := by
  obtain ⟨htext, hsettings, hpane⟩ := Fingerprint.mk.inj h
  refine ⟨?_, ?_, hpane⟩
  · apply String.toByteArray_inj.mp
    exact hfree _ (hd _ (by simp [digested])) _ (he _ (by simp [digested])) htext
  · apply arguments_eq_of_delimit_eq hd' he'
    exact hfree _ (hd _ (by simp [digested])) _ (he _ (by simp [digested])) hsettings

/-- The fingerprint is made of nothing but the text, the arguments and the view. -/
theorem fingerprint_congr {d e : Document} {p q : Pane} (htext : d.text = e.text)
    (harguments : d.settings.arguments = e.settings.arguments) (hpane : p = q) :
    d.fingerprint p = e.fingerprint q := by
  rw [fingerprint, fingerprint, htext, harguments, hpane]

/-- **A fingerprint separates exactly what it names.** Fingerprints are equal if and only if the
texts have the same bytes, the views are the same, and the renderer is given the same arguments
wherever it reads the song from. The delimited arguments name the list of arguments, as the
delimited parts of every list do. -/
theorem fingerprint_separates {d e : Document} {p q : Pane}
    (hfree : Digest.CollisionFree (d.digested ++ e.digested)) (hd : d.Addressable)
    (he : e.Addressable) :
    (d.fingerprint p = e.fingerprint q ↔
      d.text.toUTF8 = e.text.toUTF8 ∧ p = q ∧
        ∀ input, d.settings.renderArguments input = e.settings.renderArguments input) ∧
    ∀ parts parts' : List ByteArray, (∀ part ∈ parts, part.size < 2 ^ 64) →
      (∀ part ∈ parts', part.size < 2 ^ 64) →
      (Digest.delimit parts = Digest.delimit parts' ↔ parts = parts') := by
  refine ⟨⟨fun h => ?_, ?_⟩, fun parts parts' hparts hparts' => ⟨?_, congrArg _⟩⟩
  · obtain ⟨htext, harguments, hpane⟩ := eq_of_fingerprint_eq hfree
      (fun _ => List.mem_append_left _) (fun _ => List.mem_append_right _) hd he h
    exact ⟨congrArg _ htext, hpane, Settings.renderArguments_eq_iff.mpr harguments⟩
  · rintro ⟨htext, hpane, harguments⟩
    exact fingerprint_congr (String.toByteArray_inj.mp htext)
      (Settings.renderArguments_eq_iff.mp harguments) hpane
  · exact Digest.delimit_injective hparts hparts'

/-- A transposition that is an argument of its own is the same to the renderer, and a letter
that moves from one argument to the next one is not. -/
theorem same_arguments_same_fingerprint :
    let d : Document := ⟨"[C]I heard", { transpose := 2 }, .unsaved "Untitled-1"⟩
    let e : Document :=
      ⟨"[C]I heard", { extraArguments := ["--transpose=2"] }, .unsaved "Untitled-2"⟩
    (Digest.CollisionFree (d.digested ++ e.digested) ∧ d.Addressable ∧ e.Addressable) ∧
      d.fingerprint .previewOnly = e.fingerprint .previewOnly ∧
      d.fingerprint .previewOnly ≠ e.fingerprint .editorAndPreview ∧
      Digest.delimit ["ab".toUTF8, "c".toUTF8] ≠ Digest.delimit ["a".toUTF8, "bc".toUTF8] := by
  intro d e
  have hfree : Digest.CollisionFree (d.digested ++ e.digested) := by decide +kernel
  have hd : d.Addressable := by decide +kernel
  have he : e.Addressable := by decide +kernel
  refine ⟨⟨hfree, hd, he⟩, ?_, ?_, ?_⟩
  · refine (fingerprint_separates hfree hd he).1.mpr ⟨rfl, rfl, ?_⟩
    exact Settings.renderArguments_eq_iff.mpr (by decide +kernel)
  · intro h
    have hpane := ((fingerprint_separates hfree hd he).1.mp h).2.1
    cases hpane
  · intro h
    have hparts := ((fingerprint_separates (p := .previewOnly) (q := .previewOnly) hfree hd he).2
      _ _ (by decide +kernel) (by decide +kernel)).mp h
    revert hparts
    decide +kernel

end Document

end SongPreview
