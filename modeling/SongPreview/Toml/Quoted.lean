import SongPreview.Scan

/-!
# TOML strings

Strings in double quotes have escapes, strings in single quotes have none. Either
kind may span lines when its quotes are tripled; then a line break directly behind
the opening quotes is left out, and every line break counts as a line feed.
-/

namespace SongPreview.Toml

/-- A character that may stand unescaped in a string of one line. -/
def isPlain (c : Char) : Bool :=
  c == '\t' || (0x20 ≤ c.toNat && c.toNat ≠ 0x7F)

/-- A digit of base sixteen. -/
def isHexDigit (c : Char) : Bool :=
  c.isDigit || ('a' ≤ c && c ≤ 'f') || ('A' ≤ c && c ≤ 'F')

/-- The value of a digit of base sixteen. -/
def hexDigit (c : Char) : Nat :=
  if c.isDigit then c.toNat - '0'.toNat
  else if 'a' ≤ c then c.toNat - 'a'.toNat + 10
  else c.toNat - 'A'.toNat + 10

/-- The character that `n` hexadecimal digits name. -/
def hexEscape (n : Nat) : Scan Char := do
  let digits ← Scan.exactly n isHexDigit
  let value := digits.foldl (fun v c => 16 * v + hexDigit c) 0
  Scan.check (value < 0xD800 || (0xDFFF < value && value < 0x110000))
  return Char.ofNat value

/-- What follows a backslash. -/
def escaped : Scan Char := do
  match ← Scan.one fun _ => true with
  | 'b' => return '\x08'
  | 't' => return '\t'
  | 'n' => return '\n'
  | 'f' => return '\x0c'
  | 'r' => return '\r'
  | '"' => return '"'
  | '\\' => return '\\'
  | 'u' => hexEscape 4
  | 'U' => hexEscape 8
  | _ => failure

/-- A line break: a line feed, or one behind a carriage return. -/
def newline : Scan Unit :=
  Scan.word ['\n'] <|> Scan.word ['\r', '\n']

/-- Blanks within a line. -/
def isSpace (c : Char) : Bool :=
  c == ' ' || c == '\t'

/-- The rest of a string in double quotes. -/
def basicBody (fuel : Nat) (out : List Char) : Scan (List Char) :=
  match fuel with
  | 0 => failure
  | fuel + 1 => do
    let c ← Scan.one fun _ => true
    if c = '"' then return out.reverse
    else if c = '\\' then basicBody fuel ((← escaped) :: out)
    else
      Scan.check (isPlain c)
      basicBody fuel (c :: out)

/-- The rest of a string in single quotes. -/
def literalBody (fuel : Nat) (out : List Char) : Scan (List Char) :=
  match fuel with
  | 0 => failure
  | fuel + 1 => do
    let c ← Scan.one fun _ => true
    if c = '\'' then return out.reverse
    else
      Scan.check (isPlain c)
      literalBody fuel (c :: out)

/-- The line breaks and blanks that a backslash at the end of a line skips. -/
def skipBreaks : List Char → List Char
  | '\r' :: '\n' :: rest => skipBreaks rest
  | c :: rest => if isSpace c || c == '\n' then skipBreaks rest else c :: rest
  | [] => []

/-- The rest of a string of several lines that ends with three of the quote `q`.
Up to two more of them in front belong to the string. -/
def multilineBody (q : Char) (fuel : Nat) (out : List Char) : Scan (List Char) :=
  match fuel with
  | 0 => failure
  | fuel + 1 => do
    let quotes ← Scan.run (· == q)
    if 3 ≤ quotes.length then
      let kept := min (quotes.length - 3) 2
      let excess := quotes.length - 3 - kept
      modify (List.replicate excess q ++ ·)
      return out.reverse ++ List.replicate kept q
    else
      let out := quotes ++ out
      (do newline; multilineBody q fuel ('\n' :: out)) <|> do
        let c ← Scan.one fun _ => true
        if c = '\\' ∧ q = '"' then
          let rest ← get
          let behind := rest.dropWhile isSpace
          if (newline behind).isSome then
            set (skipBreaks behind)
            multilineBody q fuel out
          else multilineBody q fuel ((← escaped) :: out)
        else
          Scan.check (isPlain c)
          multilineBody q fuel (c :: out)

/-- A string of one line. -/
def lineString : Scan String := do
  let q ← Scan.one fun c => c == '"' || c == '\''
  let body ← Scan.bounded fun fuel =>
    if q = '"' then basicBody fuel [] else literalBody fuel []
  return String.ofList body

/-- A string of any kind. -/
def string : Scan String :=
  (do
    let q ← (do Scan.word ['"', '"', '"']; return '"') <|>
      (do Scan.word ['\'', '\'', '\'']; return '\'')
    newline <|> pure ()
    let body ← Scan.bounded fun fuel => multilineBody q fuel []
    return String.ofList body) <|> lineString

end SongPreview.Toml
