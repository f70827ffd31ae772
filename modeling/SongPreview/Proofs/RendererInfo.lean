import SongPreview.Proofs.Json.Records
import SongPreview.RendererInfo.Reading

/-!
# Reading what the renderer says

Whatever the layout of what the renderer says about itself, it is read as what it says:
the order of the members, what is left out and what stands there besides, the blanks,
the escapes in strings and a banner in front make no difference.
-/

namespace SongPreview.RendererInfo

open Json

/-! ## The objects -/

/-- The members of the version of a program. -/
def Component.slots : List (Slot Component) := [
  ⟨"version", Component.version, Quotes, ""⟩,
  ⟨"aux", Component.aux, QuotesOrNull, none⟩]

/-- The members of the language that the renderer runs on. -/
def Platform.slots : List (Slot Platform) := [
  ⟨"version", Platform.version, QuotesOrNull, none⟩,
  ⟨"path", Platform.path, QuotesOrNull, none⟩]

/-- The members of the renderer and what it runs on. -/
def General.slots : List (Slot General) := [
  ⟨"chordpro", General.core, ObjectOf Component.slots, {}⟩,
  ⟨"perl", General.platform, ObjectOf Platform.slots, {}⟩,
  ⟨"abc", General.abc, QuotesOrNull, none⟩]

/-- The members of a library. -/
def Module.slots : List (Slot Module) := [
  ⟨"name", Module.name, Quotes, ""⟩,
  ⟨"version", Module.version, Quotes, ""⟩]

/-- The member of a directory of resources. -/
def resourceSlots : List (Slot String) := [⟨"path", id, Quotes, ""⟩]

/-- The members of what the renderer says about itself. -/
def slots : List (Slot RendererInfo) := [
  ⟨"general", RendererInfo.general, ObjectOf General.slots, {}⟩,
  ⟨"resources", RendererInfo.resources, ListOf (ObjectOf resourceSlots), []⟩,
  ⟨"modules", RendererInfo.modules, ListOf (ObjectOf Module.slots), []⟩]

/-! ## The readers -/

theorem component_reads : Reads Component.reader (ObjectOf Component.slots) := by
  unfold Component.reader
  refine record_reads ⟨.cons ?_ (.cons ?_ .nil), by decide, by simp, ?_⟩ _
  · exact .of_reads text_reads (fun _ _ => rfl) (by simp)
  · exact .of_reads textOrNull_reads (fun _ _ => rfl) (by simp)
  · rintro ⟨⟩ ⟨⟩ h
    simpa [Component.slots] using h

theorem platform_reads : Reads Platform.reader (ObjectOf Platform.slots) := by
  unfold Platform.reader
  refine record_reads ⟨.cons ?_ (.cons ?_ .nil), by decide, by simp, ?_⟩ _
  · exact .of_reads textOrNull_reads (fun _ _ => rfl) (by simp)
  · exact .of_reads textOrNull_reads (fun _ _ => rfl) (by simp)
  · rintro ⟨⟩ ⟨⟩ h
    simpa [Platform.slots] using h

theorem general_reads : Reads General.reader (ObjectOf General.slots) := by
  unfold General.reader
  refine record_reads ⟨.cons ?_ (.cons ?_ (.cons ?_ .nil)), by decide, by simp, ?_⟩ _
  · exact .of_reads component_reads (fun _ _ => rfl) (by simp)
  · exact .of_reads platform_reads (fun _ _ => rfl) (by simp)
  · exact .of_reads textOrNull_reads (fun _ _ => rfl) (by simp)
  · rintro ⟨⟩ ⟨⟩ h
    simpa [General.slots] using h

theorem module_reads : Reads Module.reader (ObjectOf Module.slots) := by
  unfold Module.reader
  refine record_reads ⟨.cons ?_ (.cons ?_ .nil), by decide, by simp, ?_⟩ _
  · exact .of_reads text_reads (fun _ _ => rfl) (by simp)
  · exact .of_reads text_reads (fun _ _ => rfl) (by simp)
  · rintro ⟨⟩ ⟨⟩ h
    simpa [Module.slots] using h

theorem resource_reads : Reads resourceReader (ObjectOf resourceSlots) := by
  unfold resourceReader
  -- the path is all of the record
  have hput : (fun _ => .text : String → Reader String) =
      fun path => return (fun _ read => read) path (← Reader.text) := by simp
  rw [hput]
  refine record_reads ⟨.cons ?_ .nil, by decide, by simp, ?_⟩ _
  · exact .of_reads text_reads (fun _ _ => rfl) (by simp)
  · intro v w h
    simpa [resourceSlots] using h

theorem info_reads : Reads reader (ObjectOf slots) := by
  unfold reader
  refine record_reads ⟨.cons ?_ (.cons ?_ (.cons ?_ .nil)), by decide, by simp, ?_⟩ _
  · exact .of_reads general_reads (fun _ _ => rfl) (by simp)
  · exact .of_reads (list_reads resource_reads) (fun _ _ => rfl) (by simp)
  · exact .of_reads (list_reads module_reads) (fun _ _ => rfl) (by simp)
  · rintro ⟨⟩ ⟨⟩ h
    simpa [slots] using h

theorem exists_written (info : RendererInfo) : ∃ written, ObjectOf slots info written := by
  have hcomponent := exists_objectOf Component.slots (by decide)
    (by simp [Component.slots, exists_quotes, exists_quotesOrNull])
  have hplatform := exists_objectOf Platform.slots (by decide)
    (by simp [Platform.slots, exists_quotesOrNull])
  have hgeneral := exists_objectOf General.slots (by decide)
    (by simp [General.slots, hcomponent, hplatform, exists_quotesOrNull])
  have hmodule := exists_objectOf Module.slots (by decide)
    (by simp [Module.slots, exists_quotes])
  have hresource := exists_objectOf resourceSlots (by decide)
    (by simp [resourceSlots, exists_quotes])
  exact exists_objectOf slots (by decide)
    (by simp [slots, hgeneral, exists_listOf hmodule, exists_listOf hresource]) info

/-! ## The answer -/

/-- The banner is left out: the object begins at its brace. -/
theorem objectText_banner {banner text : String} {s : List Char} (hbanner : '\x7b' ∉ banner.toList)
    (htext : text.toList = '\x7b' :: s) : objectText (banner ++ text) = text := by
  have hmem : '\x7b' ∈ (banner ++ text).toList := by simp [htext]
  have hdrop : (banner ++ text).toList.dropWhile (· ≠ '\x7b') = text.toList := by
    rw [String.toList_append, List.dropWhile_append_of_pos, htext]
    · simp
    · intro c hc
      simpa using fun h : c = '\x7b' => hbanner (h ▸ hc)
  rw [objectText, if_pos hmem, hdrop, String.ofList_toList]

/-- Whatever the renderer says about itself can be written, and however it is written,
behind any banner without a brace and in front of any blanks, it is read as what it
says. -/
theorem parse_written (info : RendererInfo) :
    (∃ text, ObjectOf slots info text) ∧
      ∀ banner text blanks : String, '\x7b' ∉ banner.toList → ObjectOf slots info text.toList →
        Blanks blanks.toList → parse (banner ++ (text ++ blanks)) = .ok info := by
  refine ⟨exists_written info, fun banner text blanks hbanner htext hblanks => ?_⟩
  have hread := info_reads.read htext blanks.toList
  obtain ⟨members, -, -, inner, -, hcons⟩ := htext
  rw [parse, objectText_banner hbanner (by rw [String.toList_append, hcons]; rfl), Reader.whole,
    String.toList_append]
  simp only [StateT.run']
  rw [Reader.bind_of_ok hread, Reader.bind_of_ok (Reader.finish_blanks hblanks)]
  rfl

/-- Something that the renderer may say: only its version. -/
private def said : RendererInfo := { general := { core := { version := "6/0" } } }

/-- The version with an escape in it. -/
private def coreText : List Char := "\x7b\"version\": \"6\\/0\"\x7d".toList

private theorem core_written : ObjectOf Component.slots said.general.core coreText := by
  have hkey := Key.plain "version" (by decide) blanks_nil (by decide : Blanks [' '])
  have hvalue : Quotes "6/0" "\"6\\/0\"".toList :=
    ⟨['6'] ++ (['\\', '/'] ++ ['0']),
      .cons (.plain (by decide)) (.cons (.short (by decide)) (.plain (by decide))), rfl⟩
  exact ⟨_, .known List.mem_cons_self hkey hvalue (by simp) .nil, by simp [Component.slots, said],
    _, .cons (.first blanks_nil) (.nil blanks_nil), by decide +kernel⟩

/-- A list with half of a surrogate pair in it. -/
private def listText : List Char := "[-1.5e3, \"\\ud800\"]".toList

private theorem list_written : IsValue listText := by
  have hnumber : IsValue "-1.5e3".toList :=
    .number ⟨['-'], ['1'], ['.', '5'], ['e', '3'], by decide, ⟨by decide, by decide⟩,
      .some (by decide), .some (by decide) (by decide : [] ∈ [[], ['+'], ['-']]) (by decide), rfl⟩
  have hhalf : HexUnit ['d', '8', '0', '0'] (((13 * 16 + 8) * 16 + 0) * 16 + 0) :=
    .digits (by decide) (by decide) (by decide) (by decide)
  have htext : IsValue "\"\\ud800\"".toList := .text ⟨[_], by simpa using .unit hhalf, rfl⟩
  exact .list (List.forall_mem_cons.mpr ⟨hnumber, List.forall_mem_singleton.mpr htext⟩)
    ⟨_, .cons (.first blanks_nil) (.cons (.next blanks_nil (by decide : Blanks [' ']))
      (.nil blanks_nil)), rfl⟩

/-- The version beside a list that is not known. -/
private def generalText : List Char :=
  "\x7b\"abc\": null ,\"list\":".toList ++ listText ++ ", \"chordpro\":".toList ++ coreText ++
    ['\x7d']

private theorem general_written : ObjectOf General.slots said.general generalText := by
  have habc := Key.plain "abc" (by decide) blanks_nil (by decide : Blanks [' '])
  have hlist := Key.plain "list" (by decide) blanks_nil blanks_nil
  have hchordpro := Key.plain "chordpro" (by decide) blanks_nil blanks_nil
  have hlast := Fit.known (v := said.general)
    (show ⟨"chordpro", General.core, ObjectOf Component.slots, {}⟩ ∈ General.slots by
      simp [General.slots]) hchordpro core_written (by simp) .nil
  have hlater := Fit.unknown (by simp [Known, General.slots]) hlist list_written hlast
  have hfit := Fit.known (show ⟨"abc", General.abc, QuotesOrNull, none⟩ ∈ General.slots by
    simp [General.slots]) habc QuotesOrNull.null (by simp) hlater
  exact ⟨_, hfit, by simp [General.slots, said], _, .cons (.first blanks_nil)
    (.cons (.next (by decide : Blanks [' ']) blanks_nil)
      (.cons (.next blanks_nil (by decide : Blanks [' '])) (.nil blanks_nil))), by decide +kernel⟩

/-- What the renderer answers: no libraries, and its version behind a name with an
escape in it. -/
private def answer : String :=
  "\x7b\"modules\": [ ],\n \"gen\\u0065ral\": " ++ String.ofList generalText ++ "\x7d"

private theorem answer_written : ObjectOf slots said answer.toList := by
  have hmodules := Key.plain "modules" (by decide) blanks_nil (by decide : Blanks [' '])
  have hletter : HexUnit ['0', '0', '6', '5'] (((0 * 16 + 0) * 16 + 6) * 16 + 5) :=
    .digits (by decide) (by decide) (by decide) (by decide)
  have hgeneral : Key (Quotes "general") "\"gen\\u0065ral\": ".toList := by
    have hstart : Spells ['g', 'e', 'n'] ['g', 'e', 'n'] := .plain (by decide)
    have hend : Spells ['r', 'a', 'l'] ['r', 'a', 'l'] := .plain (by decide)
    exact ⟨"\"gen\\u0065ral\"".toList, [], [' '],
      ⟨_, hstart.append (.cons (c := 'e') (.unit hletter) hend), rfl⟩, by decide, by decide, rfl⟩
  have hlist : ListOf (ObjectOf Module.slots) said.modules ['[', ' ', ']'] :=
    ⟨[], .nil, [' '], .nil (by decide), rfl⟩
  have hlast := Fit.known (v := said)
    (show ⟨"general", RendererInfo.general, ObjectOf General.slots, {}⟩ ∈ slots by simp [slots])
    hgeneral general_written (by simp) .nil
  have hfit := Fit.known
    (show ⟨"modules", RendererInfo.modules, ListOf (ObjectOf Module.slots), []⟩ ∈ slots by
      simp [slots]) hmodules hlist (by simp) hlast
  exact ⟨_, hfit, by simp [slots, said], _, .cons (.first blanks_nil)
    (.cons (.next blanks_nil (by decide : Blanks ['\n', ' '])) (.nil blanks_nil)),
    by decide +kernel⟩

/-- The members may come in any order, with escapes in their names, a `null` for what is
not there, and others between them. -/
theorem version_read :
    '\x7b' ∉ "ChordPro 6\n".toList ∧ ObjectOf slots said answer.toList ∧ Blanks "\n".toList ∧
      parse ("ChordPro 6\n" ++ (answer ++ "\n")) = .ok said :=
  ⟨by decide, answer_written, by decide,
    (parse_written said).2 _ _ _ (by decide) answer_written (by decide)⟩

end SongPreview.RendererInfo
