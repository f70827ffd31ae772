import SongPreview.Shell.Tool.Texts
import SongPreview.Shell.Tool.Words

/-!
# The programs by their names
-/

namespace SongPreview.Shell

/-- The programs by their names. -/
def tools : List (String × Tool) :=
  [("cat", cat), ("head", head), ("tail", tail), ("tr", tr), ("wc", wc), ("basename", basename),
    ("dirname", dirname), ("sleep", sleep), ("seq", seq), ("pwd", pwd), ("tee", tee),
    ("echo", echo), ("printf", printf), ("true", nothing 0), ("false", nothing 1),
    ("test", testTool false), ("[", testTool true), ("sed", sed)]

end SongPreview.Shell
