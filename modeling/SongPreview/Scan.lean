/-!
# Scanning text

A scanner reads from the front of a text and leaves the rest. An alternative
starts again where the failed one had started.
-/

namespace SongPreview

/-- Reads something from the front of a text, or fails. -/
abbrev Scan := StateT (List Char) Option

namespace Scan

/-- Fails if a condition does not hold. -/
def check (condition : Bool) : Scan Unit :=
  if condition then pure () else failure

/-- The next character, which is not read. -/
def peek? : Scan (Option Char) := fun s => some (s.head?, s)

/-- One character of a class. -/
def one (p : Char → Bool) : Scan Char
  | c :: rest => if p c then some (c, rest) else none
  | [] => none

/-- A given text. -/
def word : List Char → Scan Unit
  | [], s => some ((), s)
  | c :: cs, d :: ds => if c = d then word cs ds else none
  | _ :: _, [] => none

/-- The longest run of characters of a class, perhaps empty. -/
def run (p : Char → Bool) : Scan (List Char) := fun s =>
  some (s.takeWhile p, s.dropWhile p)

/-- The longest run of characters of a class, not empty. -/
def run1 (p : Char → Bool) : Scan (List Char) := do
  let found ← run p
  check (!found.isEmpty)
  return found

/-- Succeeds at the end of the text only. -/
def finished : Scan Unit
  | [] => some ((), [])
  | _ :: _ => none

/-- Exactly `n` characters of a class. -/
def exactly (n : Nat) (p : Char → Bool) : Scan (List Char) := fun s =>
  let found := s.take n
  if found.length = n ∧ found.all p then some (found, s.drop n) else none

/-- Runs a scanner that gets the length of the text to bound its loops by. -/
def bounded {α : Type} (scanner : Nat → Scan α) : Scan α := fun s => scanner (s.length + 1) s

/-- Runs a scanner on a whole text. -/
def whole {α : Type} (scanner : Scan α) (s : List Char) : Option α :=
  match scanner s with
  | some (value, []) => some value
  | _ => none

end Scan

end SongPreview
