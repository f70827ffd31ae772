import SongPreview.Terminal

/-!
# What is printed

A part of the program may print to both of its outputs. What several parts print is
joined in their order.
-/

namespace SongPreview

/-- Text for the standard output and for the error output. -/
structure Console where
  out : String := ""
  err : String := ""
  deriving DecidableEq, Repr, Inhabited

namespace Console

instance : Append Console where
  append a b := ⟨a.out ++ b.out, a.err ++ b.err⟩

/-- Text for the standard output alone. -/
def ofOut (text : String) : Console := { out := text }

end Console

end SongPreview
