/-!
# TOML values

What a TOML document says: a tree of tables whose entries stand in the order of
the document.
-/

namespace SongPreview.Toml

/-- A value of a document. Decimals and dates have no use here beyond their kind,
so a decimal keeps no value and a date only its text. -/
inductive Value where
  | text (s : String)
  | integer (n : Int)
  | decimal
  | boolean (b : Bool)
  | dateTime (s : String)
  | array (items : List Value)
  | table (entries : List (String × Value))
  deriving Inhabited, Repr

/-- The value of a key. -/
def find? (entries : List (String × Value)) (key : String) : Option Value :=
  (entries.find? fun entry => entry.1 = key).map Prod.snd

end SongPreview.Toml
