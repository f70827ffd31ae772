import SongPreview.Layout

/-!
# What the renderer says about itself

The versions and parts of an installed renderer, the report that shows them, and the
directives that it understands.
-/

namespace SongPreview

namespace RendererInfo

/-- The version of a program. -/
structure Component where
  version : String := ""
  aux : Option String := none
  deriving DecidableEq, Repr

/-- The language that the renderer runs on. -/
structure Platform where
  version : Option String := none
  path : Option String := none
  deriving DecidableEq, Repr

/-- The renderer and what it runs on. -/
structure General where
  core : Component := {}
  platform : Platform := {}
  /-- The converter of tunes in ABC notation. -/
  abc : Option String := none
  deriving DecidableEq, Repr

/-- A library that the renderer uses. -/
structure Module where
  name : String := ""
  version : String := ""
  deriving DecidableEq, Repr

end RendererInfo

/-- What the renderer says about itself. -/
structure RendererInfo where
  general : RendererInfo.General := {}
  /-- The directories of its resources. -/
  resources : List String := []
  modules : List RendererInfo.Module := []
  deriving DecidableEq, Repr

/-- A directive of the song language. -/
structure Directive where
  name : String
  short : Option String
  /-- Whether something is said behind a colon. -/
  argument : Bool
  deriving DecidableEq, Repr

namespace RendererInfo

/-- Whether tunes in ABC notation can be rendered. -/
def hasAbc (info : RendererInfo) : Bool :=
  match info.general.abc with
  | some abc => abc ≠ "" ∧ abc.toList.map Char.toLower ≠ "none".toList
  | none => false

/-- The version of this program. -/
def ownVersion : String := "0.1.0"

/-- A text in parentheses behind a blank, if there is one. -/
def aside (s : Option String) : String :=
  s.elim "" fun s => " (" ++ s ++ ")"

/-- The report on a renderer. -/
def report (info : RendererInfo) : String :=
  "ChordPro Preview version " ++ ownVersion ++ "\nhttps://www.chordpro.org\n\n" ++
  "Run-time information:\n  ChordProCore:\n    " ++
  info.general.core.version ++ aside info.general.core.aux ++
  "\n  Perl:\n    " ++
  info.general.platform.version.getD "unknown" ++ aside info.general.platform.path ++
  "\n  Resource path:\n" ++
  String.join (info.resources.map fun path => "    " ++ path ++ "\n") ++
  "  ABC support:\n    " ++ info.general.abc.getD "none" ++
  "\n\nModules and libraries:\n" ++
  String.join (info.modules.map fun m =>
    "    " ++ Layout.padRight 22 m.name ++ m.version ++ "\n")

end RendererInfo

namespace Directive

/-- A directive with something behind a colon. -/
def withValue (name : String) (short : Option String := none) : Directive := ⟨name, short, true⟩

/-- A directive that stands alone. -/
def alone (name : String) (short : Option String := none) : Directive := ⟨name, short, false⟩

/-- The directives that every renderer understands. -/
def core : List Directive := [
  withValue "title" "t", withValue "subtitle" "st", withValue "artist", withValue "composer",
  withValue "lyricist", withValue "arranger", withValue "copyright", withValue "album",
  withValue "year", withValue "key", withValue "time", withValue "tempo", withValue "duration",
  withValue "capo", withValue "meta",
  withValue "comment" "c", withValue "comment_italic" "ci", withValue "comment_box" "cb",
  withValue "highlight", withValue "image",
  alone "start_of_chorus" "soc", alone "end_of_chorus" "eoc", alone "chorus",
  alone "start_of_verse" "sov", alone "end_of_verse" "eov",
  alone "start_of_bridge" "sob", alone "end_of_bridge" "eob",
  alone "start_of_tab" "sot", alone "end_of_tab" "eot",
  alone "start_of_grid" "sog", alone "end_of_grid" "eog",
  alone "start_of_svg", alone "end_of_svg", alone "start_of_textblock", alone "end_of_textblock",
  withValue "define", withValue "chord", withValue "transpose",
  alone "new_page" "np", alone "new_physical_page" "npp", alone "column_break" "colb",
  withValue "columns" "col", withValue "pagetype", withValue "diagrams",
  alone "no_grid" "ng", alone "grid" "g", alone "new_song" "ns"]

/-- The directives around a tune in ABC notation. -/
def abc : List Directive := [alone "start_of_abc", alone "end_of_abc"]

/-- The directives that a renderer understands. Nothing is known of one that has said
nothing. -/
def known : Option RendererInfo → List Directive
  | none => []
  | some info => core ++ if info.hasAbc then abc else []

/-- A directive as it is written in a song. -/
def usage (d : Directive) : String :=
  "\x7b" ++ d.name ++ (if d.argument then ": ..." else "") ++ "\x7d"

/-- A line of the list of directives. -/
def line (d : Directive) : String :=
  Layout.padRight 28 d.usage ++ " " ++ d.short.elim "" (fun s => "(" ++ s ++ ")") ++ "\n"

end Directive

end SongPreview
