/-!
# Byte strings
-/

namespace SongPreview

/-- Byte strings are equal if they hold the same bytes. -/
instance (priority := 2000) decidableEqBytes : DecidableEq ByteArray :=
  ByteArray.instDecidableEq

end SongPreview
