/-!
# Patterns

In a pattern an asterisk fits any text, a question mark any character, and a list in
brackets one of its characters. A quoted character fits only itself.
-/

namespace SongPreview.Shell

/-- A part of a pattern. -/
inductive Glob where
  | any
  | one
  | oneOf (negated : Bool) (ranges : List (Char × Char))
  | exact (c : Char)
  deriving DecidableEq, Repr

namespace Glob

/-- The ranges of a list in brackets, up to the closing one. -/
def ranges (out : List (Char × Char)) (first : Bool) :
    List (Char × Bool) → Option (List (Char × Char) × List (Char × Bool))
  | [] => none
  | (']', false) :: rest =>
    if first then ranges ((']', ']') :: out) false rest else some (out, rest)
  | (a, _) :: ('-', false) :: (b, _) :: rest =>
    if b = ']' then some (('-', '-') :: (a, a) :: out, rest)
    else ranges ((a, b) :: out) false rest
  | (a, _) :: rest => ranges ((a, a) :: out) false rest

/-- The parts of a text whose characters are quoted or not. -/
def ofChars : Nat → List (Char × Bool) → List Glob
  | 0, _ => []
  | _, [] => []
  | bound + 1, ('*', false) :: rest => any :: ofChars bound rest
  | bound + 1, ('?', false) :: rest => one :: ofChars bound rest
  | bound + 1, ('[', false) :: rest =>
    let (negated, inside) :=
      match rest with
      | ('!', false) :: inside => (true, inside)
      | ('^', false) :: inside => (true, inside)
      | _ => (false, rest)
    match ranges [] true inside with
    | some (found, rest) => oneOf negated found :: ofChars bound rest
    | none => exact '[' :: ofChars bound rest
  | bound + 1, (c, _) :: rest => exact c :: ofChars bound rest

/-- The parts of a text. -/
def parse (s : List (Char × Bool)) : List Glob :=
  ofChars s.length s

/-- Whether a character fits one part. -/
def fitsChar (c : Char) : Glob → Bool
  | any => true
  | one => true
  | oneOf negated ranges => (ranges.any fun r => r.1 ≤ c ∧ c ≤ r.2) != negated
  | exact d => c = d

/-- Whether a text fits a pattern as a whole. The first number bounds the search. -/
def fits : Nat → List Glob → List Char → Bool
  | 0, _, _ => false
  | _, [], s => s.isEmpty
  | bound + 1, any :: rest, s =>
    fits bound rest s ||
      match s with
      | [] => false
      | _ :: s => fits bound (any :: rest) s
  | bound + 1, part :: rest, c :: s => fitsChar c part && fits bound rest s
  | _, _ :: _, [] => false

/-- Whether a text fits a pattern as a whole. -/
def fit (pattern : List Glob) (s : String) : Bool :=
  fits (pattern.length + s.length + 1) pattern s.toList

/-- Whether anything in a pattern fits more than one text. -/
def isOpen (pattern : List Glob) : Bool :=
  pattern.any fun
    | exact _ => false
    | _ => true

end Glob

end SongPreview.Shell
