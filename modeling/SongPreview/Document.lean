import SongPreview.Digest
import SongPreview.Settings

/-!
# Documents

A document is the text of a song with its settings and its origin, as they were
at one moment. Its fingerprint names what decides the rendered page: the text,
the arguments that the settings turn into, and the panes on show.
-/

namespace SongPreview

/-- The panes of a view. -/
inductive Pane where
  | editorOnly
  | editorAndPreview
  | previewOnly
  deriving DecidableEq, Repr

namespace Pane

/-- Whether the view shows the rendered page. -/
def showsPreview (p : Pane) : Bool :=
  p != .editorOnly

/-- The name shown to the user. -/
def label : Pane → String
  | editorOnly => "editor"
  | editorAndPreview => "editor+preview"
  | previewOnly => "preview"

/-- The name in configuration files and on the command line. -/
def name : Pane → String
  | editorOnly => "editor-only"
  | editorAndPreview => "editor-and-preview"
  | previewOnly => "preview-only"

/-- The pane of a name. -/
def ofName? (s : String) : Option Pane :=
  [editorOnly, editorAndPreview, previewOnly].find? fun p => p.name = s

end Pane

/-- Where a document comes from: a file, or an unsaved text with a name. -/
inductive Source where
  | file (path : Path)
  | unsaved (name : String)
  deriving DecidableEq, Repr

namespace Source

/-- The short name: that of the file without its directory. -/
def shortName : Source → String
  | file path => path.fileName?.getD path.text
  | unsaved name => name

/-- The full name. -/
def text : Source → String
  | file path => path.text
  | unsaved name => name

/-- The file, if there is one. -/
def path? : Source → Option Path
  | file path => some path
  | unsaved _ => none

/-- The extension of a copy of the document. -/
def extension (s : Source) : String :=
  (s.path?.bind Path.extension?).getD "cho"

end Source

/-- A document at one moment. -/
structure Document where
  text : String
  settings : Settings
  source : Source
  deriving DecidableEq, Repr

/-- What decides how a document is rendered, in a form that can be compared. -/
structure Fingerprint where
  text : Digest
  settings : Digest
  pane : Pane
  deriving DecidableEq, Repr

/-- The fingerprint of a document in a view. -/
def Document.fingerprint (d : Document) (pane : Pane) : Fingerprint where
  text := Digest.of d.text.toUTF8
  settings := Digest.ofParts (d.settings.arguments.map String.toUTF8)
  pane := pane

end SongPreview
