/-!
# Numerals and columns

Fixed forms of numbers and words in the program's output.
-/

namespace SongPreview.Layout

/-- A text filled with blanks on the right up to a width in characters. -/
def padRight (width : Nat) (s : String) : String :=
  s ++ "".pushn ' ' (width - s.length)

/-- A text filled with blanks on the left up to a width in characters. -/
def padLeft (width : Nat) (s : String) : String :=
  "".pushn ' ' (width - s.length) ++ s

/-- Two decimal digits. -/
def twoDigits (n : Nat) : String :=
  if n < 10 then "0" ++ toString n else toString n

/-- The time of day, in UTC, of a number of seconds since the epoch. -/
def clockTime (seconds : Int) : String :=
  let s := (seconds % 86400).toNat
  twoDigits (s / 3600) ++ ":" ++ twoDigits (s / 60 % 60) ++ ":" ++ twoDigits (s % 60)

/-- The quotient rounded to the nearest integer, an exact half to the even one. -/
def roundQuotient (num den : Nat) : Nat :=
  let q := num / den
  let twice := 2 * (num % den)
  if twice < den then q
  else if den < twice then q + 1
  else q + q % 2

/-- A number to the 53 significant binary digits that a count keeps when it is
measured in larger units. -/
def roundTo53 (n : Nat) : Nat :=
  let unit := Nat.pow 2 ((Nat.log2 n + 1) - 53)
  roundQuotient n unit * unit

/-- The number of 53 significant binary digits that is nearest to a quotient below one,
as a numerator over a power of two. -/
def nearestBinary (num den : Nat) : Nat × Nat :=
  let shift := 53 + Nat.log2 den - Nat.log2 num
  let scale :=
    if Nat.pow 2 53 ≤ num * Nat.pow 2 shift / den then Nat.pow 2 (shift - 1) else Nat.pow 2 shift
  (roundQuotient (num * scale) den, scale)

/-- A number of tenths as a decimal with one place. -/
def tenths (n : Nat) : String :=
  toString (n / 10) ++ "." ++ toString (n % 10)

/-- A byte count in the largest of three units that it reaches. -/
def formatSize (bytes : Nat) : String :=
  if bytes < 1024 then toString bytes ++ " B"
  else if bytes < 1024 * 1024 then tenths (roundQuotient (bytes * 10) 1024) ++ " KiB"
  else tenths (roundQuotient (roundTo53 bytes * 10) (1024 * 1024)) ++ " MiB"

end SongPreview.Layout
