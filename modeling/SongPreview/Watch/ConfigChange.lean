import SongPreview.Config
import SongPreview.Scheduler

/-!
# Changes of the configuration

What a scene is told when the configuration changes under it: new settings reach it
as an edit of the latest document, a new layout as a change of panes. The sections
about the renderer and about requests hold for a whole session.
-/

namespace SongPreview

/-- The same document with other settings. -/
def Document.withSettings (d : Document) (settings : Settings) : Document :=
  { d with settings }

namespace Config

/-- The remark that some changes have no effect yet. -/
def restartNotice (time : Int) : Diagnostic :=
  .unattributed .notice "[renderer] and [pipeline] changes take effect after restarting watch" time

/-- What a scene is told when one configuration takes the place of another. -/
def changeEvents (time : Int) (old new : Config) (latest : Option Document) : List Event :=
  (if new.render.same old.render then []
    else latest.toList.map fun d => .edit (d.withSettings new.render)) ++
  (if new.preview.pane = old.preview.pane then [] else [.setPane new.preview.pane]) ++
  (if new.renderer = old.renderer ∧ new.pipeline = old.pipeline then []
    else [.notice (restartNotice time)])

end Config

end SongPreview
