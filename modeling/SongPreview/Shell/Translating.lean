import SongPreview.Shell.Format
import SongPreview.Shell.Regex

/-!
# Translating characters

The characters of one set become those of another, or are left out. A set is a row of
characters, ranges and classes.
-/

namespace SongPreview.Shell.Translating

/-- The characters of a range. -/
def range (a b : Char) : List Char :=
  (List.range (b.toNat + 1 - a.toNat)).map fun i => Char.ofNat (a.toNat + i)

/-- A row of characters with its escapes carried out; the flag marks escaped ones. -/
def unescaped : Nat → List Char → List (Char × Bool)
  | 0, _ | _, [] => []
  | bound + 1, '\\' :: c :: rest =>
    if Format.isOctal c then
      let (byte, rest) := Format.octal (c :: rest)
      (byte, true) :: unescaped bound rest
    else ((Format.letterEscapes.lookup c).getD c, true) :: unescaped bound rest
  | bound + 1, c :: rest => (c, false) :: unescaped bound rest

/-- The characters of a set. A character that is repeated to fill up the set is told with
the set before it. -/
def expanded : Nat → List (Char × Bool) → List Char
  | 0, _ | _, [] => []
  | bound + 1, s@((a, escaped) :: rest) =>
    match if escaped then none else CharSet.className? (s.map Prod.fst) with
    | some (name, after) =>
      let ranges := (CharSet.named name).mergeSort fun x y => x.1 ≤ y.1
      (ranges.flatMap fun r => range r.1 r.2) ++ expanded bound (s.drop (s.length - after.length))
    | none =>
      match rest with
      | ('-', false) :: (b, _) :: rest => range a b ++ expanded bound rest
      | _ => a :: expanded bound rest

/-- The characters of the text of a set. -/
def ofText (s : String) : List Char :=
  let row := unescaped s.length s.toList
  expanded row.length row

/-- What is done with characters. -/
structure Plan where
  /-- The characters that become others, or all but these. -/
  source : List Char
  complement : Bool
  /-- What they become, if they are not left out. -/
  target : List Char
  delete : Bool
  /-- The characters that are kept once only where they are repeated. -/
  squeeze : List Char
  squeezeComplement : Bool

namespace Plan

/-- What becomes of a character. -/
def apply (p : Plan) (c : Char) : Option Char :=
  if p.complement then
    if c ∈ p.source then some c else if p.delete then none else some (p.target.getLast?.getD c)
  else
    match p.source.reverse.idxOf? c with
    | none => some c
    | some i =>
      if p.delete then none
      else
        let i := p.source.length - 1 - i
        some ((p.target[i]?).getD (p.target.getLast?.getD c))

/-- Whether repetitions of a character are dropped. -/
def squeezes (p : Plan) (c : Char) : Bool :=
  (p.squeeze ≠ [] || p.squeezeComplement) && (decide (c ∈ p.squeeze) != p.squeezeComplement)

/-- The text after a translation, behind a character that was written before. -/
def run (p : Plan) (before : Option Char) (s : String) : String × Option Char :=
  s.foldl (fun acc c =>
    match p.apply c with
    | none => acc
    | some d =>
      if acc.2 = some d ∧ p.squeezes d then acc else (acc.1.push d, some d)) ("", before)

end Plan

end SongPreview.Shell.Translating
