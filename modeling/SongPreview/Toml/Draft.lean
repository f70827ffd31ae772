import SongPreview.Toml.Value

/-!
# Tables under construction

While a document is read, a table remembers how it came to be: written by a
header, implied by the header of a table inside it, or made by a dotted key. The
rules about which table may still be extended depend on it.
-/

namespace SongPreview.Toml

/-- How a table came to be. -/
inductive Origin where
  /-- By a header of its own, or in braces. -/
  | written
  /-- By the header of a table inside it. -/
  | implied
  /-- By a dotted key. -/
  | dotted
  deriving DecidableEq, Repr

/-- A node of a document under construction. -/
inductive Draft where
  | value (v : Value)
  | table (origin : Origin) (entries : List (String × Draft))
  /-- The tables that headers in double brackets add to. -/
  | tables (items : List (List (String × Draft)))
  deriving Inhabited

namespace Draft

/-- The entries of a table under construction. -/
abbrev Entries := List (String × Draft)

/-- The node of a key. -/
def find? (entries : Entries) (key : String) : Option Draft :=
  (entries.find? fun entry => entry.1 = key).map Prod.snd

/-- Gives a key a node: in its place if the key is there, else at the end. -/
def put (key : String) (node : Draft) : Entries → Entries
  | [] => [(key, node)]
  | entry :: rest => if entry.1 = key then (key, node) :: rest else entry :: put key node rest

/-- The entries without a key. -/
def remove (key : String) (entries : Entries) : Entries :=
  entries.filter fun entry => entry.1 ≠ key

/-- Changes the table at the end of a path. Tables missing on the way are made with
the origin `made`; a name with several tables leads into the last of them. A dotted
key does not lead into a written table, and nothing leads into a plain value. The
change sees the origin of the table it is made to. -/
def change (made : Origin) (edit : Origin → Entries → Option Entries) :
    (path : List String) → (origin : Origin) → Entries → Option Entries
  | [], origin, entries => edit origin entries
  | key :: path, _, entries =>
    match find? entries key with
    | none => do
      let inner ← change made edit path made []
      some (put key (.table made inner) entries)
    | some (.value _) => none
    | some (.table origin inner) => do
      guard ¬(made = .dotted ∧ origin = .written)
      let inner ← change made edit path origin inner
      some (put key (.table origin inner) entries)
    | some (.tables items) => do
      let last ← items.getLast?
      let inner ← change made edit path .written last
      some (put key (.tables (items.dropLast ++ [inner])) entries)

/-- Adds a value under a dotted key. The table it goes to has to be the open one,
if the key has a single part, or else one that a dotted key made. -/
def addValue (path : List String) (key : String) (v : Draft) (entries : Entries) :
    Option Entries :=
  change .dotted
    (fun origin inner =>
      if (path ≠ [] ∧ origin ≠ .dotted) ∨ (find? inner key).isSome then none
      else some (inner ++ [(key, v)]))
    path .written entries

mutual

/-- The finished value of a node. -/
def finish : Draft → Value
  | value v => v
  | table _ entries => .table (finishEntries entries)
  | tables items => .array (finishItems items)

/-- The finished entries of a table. -/
def finishEntries : Entries → List (String × Value)
  | [] => []
  | (key, node) :: rest => (key, finish node) :: finishEntries rest

/-- The finished tables of a name with several. -/
def finishItems : List Entries → List Value
  | [] => []
  | entries :: rest => .table (finishEntries entries) :: finishItems rest

end

end Draft

end SongPreview.Toml
