import SongPreview.Toml.Draft
import SongPreview.Toml.Quoted
import SongPreview.Toml.Scalar

/-!
# TOML documents

A document is a list of lines: entries, headers that open a table, and headers in
double brackets that open one more table of a name. `Document.read?` gives the tree
that a document stands for, or nothing if it is not well-formed.
-/

namespace SongPreview.Toml

/-- Arrays and tables in braces nest less deeply than this, and a dotted key has
fewer parts. -/
def nestingLimit : Nat := 80

/-- Blanks within a line, perhaps none. -/
def spaces : Scan Unit := do
  let _ ← Scan.run isSpace

/-- A comment, perhaps none. -/
def comment : Scan Unit :=
  (do
    Scan.word ['#']
    let _ ← Scan.run isPlain) <|> pure ()

/-- Blanks, comments and line breaks between the items of an array. -/
def gap (fuel : Nat) : Scan Unit :=
  match fuel with
  | 0 => failure
  | fuel + 1 => do
    spaces
    comment
    (do newline; gap fuel) <|> pure ()

/-- A character of a bare key. -/
def isBareKeyChar (c : Char) : Bool :=
  c.isAlphanum || c == '_' || c == '-'

/-- One part of a key. -/
def keyPart : Scan String :=
  (do return String.ofList (← Scan.run1 isBareKeyChar)) <|> lineString

/-- The parts of a dotted key. -/
def keyParts (fuel : Nat) : Scan (List String) :=
  match fuel with
  | 0 => failure
  | fuel + 1 => do
    spaces
    let part ← keyPart
    spaces
    (do
      Scan.word ['.']
      return part :: (← keyParts fuel)) <|> return [part]

/-- A key: the parts in front of the last dot, and the last part. -/
def key : Scan (List String × String) := do
  let parts ← Scan.bounded keyParts
  Scan.check (parts.length < nestingLimit)
  match parts.getLast? with
  | some last => return (parts.dropLast, last)
  | none => failure

/-- A key and its value. -/
def entry (value : Scan Value) : Scan ((List String × String) × Value) := do
  let name ← key
  Scan.word ['=']
  spaces
  let v ← value
  return (name, v)

/-- The items of an array behind its opening bracket. -/
def arrayItems (value : Scan Value) (fuel : Nat) (out : List Value) : Scan (List Value) :=
  match fuel with
  | 0 => failure
  | fuel + 1 => do
    Scan.bounded gap
    (do Scan.word [']']; return out.reverse) <|> do
      let v ← value
      Scan.bounded gap
      (do Scan.word [',']; arrayItems value fuel (v :: out)) <|> do
        Scan.word [']']
        return (v :: out).reverse

/-- The entries of a table in braces, of which there is at least one. -/
def braceEntries (value : Scan Value) (fuel : Nat) (out : Draft.Entries) : Scan Draft.Entries :=
  match fuel with
  | 0 => failure
  | fuel + 1 => do
    spaces
    let ((path, last), v) ← entry value
    spaces
    match Draft.addValue path last (.value v) out with
    | none => failure
    | some out =>
      (do Scan.word [',']; braceEntries value fuel out) <|> do
        Scan.word ['\x7d']
        return out

/-- A value. Arrays and tables in braces nest at most `depth` deep. -/
def value (depth : Nat) : Scan Value := do
  match ← Scan.peek? with
  | some '[' =>
    match depth with
    | 0 => failure
    | depth + 1 => do
      Scan.word ['[']
      return .array (← Scan.bounded fun fuel => arrayItems (value depth) fuel [])
  | some '\x7b' =>
    match depth with
    | 0 => failure
    | depth + 1 => do
      Scan.word ['\x7b']
      spaces
      (do Scan.word ['\x7d']; return .table []) <|> do
        let entries ← Scan.bounded fun fuel => braceEntries (value depth) fuel []
        return .table (Draft.finishEntries entries)
  | some '"' | some '\'' => return .text (← string)
  | _ => scalar

/-- A document while it is read: the tables finished so far, and the open table with
the path of its header and whether that had double brackets. -/
structure Reading where
  root : Draft.Entries := []
  opened : Draft.Entries := []
  path : List String := []
  repeated : Bool := false

namespace Reading

/-- Puts the open table into its place. -/
def close (r : Reading) : Option Reading :=
  match r.path.getLast? with
  | none => some { root := r.opened }
  | some last => do
    let root ← Draft.change .implied
      (fun _ entries =>
        match Draft.find? entries last with
        | some (.tables items) =>
          if r.repeated then
            some (Draft.put last (.tables (items ++ [r.opened])) entries)
          else none
        | some _ => none
        | none => some (entries ++ [(last, .table .written r.opened)]))
      r.path.dropLast .written r.root
    some { root }

/-- Opens the table of a header. A table that earlier headers only implied goes on
with what is in it, at its new place; any other table of the name is an error. -/
def openTable (r : Reading) (path : List String) (last : String) : Option Reading := do
  let r ← r.close
  let root ← Draft.change .implied
    (fun _ entries =>
      match Draft.find? entries last with
      | none | some (.table .implied _) => some entries
      | some _ => none)
    path .written r.root
  let inside ← lookUp path root
  let opened :=
    match Draft.find? inside last with
    | some (.table .implied inner) => inner
    | _ => []
  let root ← Draft.change .implied (fun _ entries => some (Draft.remove last entries))
    path .written root
  some { root, opened, path := path ++ [last], repeated := false }
where
  /-- The entries at the end of a path that is known to be there. -/
  lookUp : List String → Draft.Entries → Option Draft.Entries
    | [], entries => some entries
    | key :: path, entries =>
      match Draft.find? entries key with
      | some (.table _ inner) => lookUp path inner
      | some (.tables items) => items.getLast?.bind (lookUp path)
      | _ => none

/-- Opens one more table of a name that has, or now gets, several. -/
def openItem (r : Reading) (path : List String) (last : String) : Option Reading := do
  let r ← r.close
  let root ← Draft.change .implied
    (fun _ entries =>
      match Draft.find? entries last with
      | none => some (entries ++ [(last, .tables [])])
      | some (.tables _) => some entries
      | some _ => none)
    path .written r.root
  some { root, opened := [], path := path ++ [last], repeated := true }

end Reading

/-- The end of a line: blanks, a comment, and the line break or the end of the text. -/
def lineEnd : Scan Unit := do
  spaces
  comment
  newline <|> Scan.finished

/-- One line: nothing, a header, or an entry. -/
def line (r : Reading) : Scan Reading := do
  spaces
  let opened : Option Reading ←
    match ← Scan.peek? with
    | some '[' =>
      (do
        Scan.word ['[', '[']
        let (path, last) ← key
        Scan.word [']', ']']
        pure (r.openItem path last)) <|>
      (do
        Scan.word ['[']
        let (path, last) ← key
        Scan.word [']']
        pure (r.openTable path last))
    | none | some '#' | some '\n' | some '\r' => pure (some r)
    | _ => do
      let ((path, last), v) ← entry (value (nestingLimit - 1))
      pure <| (Draft.addValue path last (.value v) r.opened).map fun opened => { r with opened }
  match opened with
  | none => failure
  | some r =>
    lineEnd
    return r

/-- The lines of a document. -/
def lines (fuel : Nat) (r : Reading) : Scan Reading :=
  match fuel with
  | 0 => failure
  | fuel + 1 => do
    (do Scan.finished; return r) <|> do
      let r ← line r
      lines fuel r

/-- The entries of a document, or nothing if it is not well-formed. A byte order mark
at the front is skipped. -/
def read? (document : String) : Option (List (String × Value)) := do
  let text := document.toList
  let text := if text.head? = some '\ufeff' then text.drop 1 else text
  let r ← Scan.whole (Scan.bounded fun fuel => lines fuel {}) text
  let r ← r.close
  some (Draft.finishEntries r.root)

end SongPreview.Toml
