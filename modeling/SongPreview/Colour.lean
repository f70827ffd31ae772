/-!
# Colour codes

A colour code is an escape character, an opening bracket, any number of digits
and semicolons, and the letter `m`. `strip` deletes the complete codes of a text
and keeps everything else, and the styles below write the few codes the program
itself uses.
-/

namespace SongPreview.Colour

/-- Digits and semicolons form the parameters of a code. -/
def isParameter (c : Char) : Bool :=
  c.isDigit || c == ';'

/-- The text after the complete colour code at the front, if there is one. -/
def afterCode? : List Char → Option (List Char)
  | '\x1b' :: '[' :: rest =>
    match rest.dropWhile isParameter with
    | 'm' :: after => some after
    | _ => none
  | _ => none

/-- A code is never empty, so less text remains after it. -/
theorem length_afterCode?_lt {s after : List Char} (h : afterCode? s = some after) :
    after.length < s.length := by
  unfold afterCode? at h
  split at h
  · next rest =>
    split at h
    · next heq =>
      have hle := (List.dropWhile_sublist isParameter (l := rest)).length_le
      simp only [heq, List.length_cons] at hle
      simp only [Option.some.injEq] at h
      subst h
      simp only [List.length_cons]
      omega
    · simp at h
  · simp at h

/-- Moves the text that is not part of a code in front of the output, which is
held in reverse. A candidate that fails gives up its first character only, so a
code that begins inside it is still found. -/
def stripOnto (out : List Char) : List Char → List Char
  | [] => out.reverse
  | c :: rest =>
    match _found : afterCode? (c :: rest) with
    | some after => stripOnto out after
    | none => stripOnto (c :: out) rest
termination_by s => s.length
decreasing_by
  · exact length_afterCode?_lt _found
  · simp

/-- The text without its complete colour codes. -/
def strip (s : List Char) : List Char :=
  stripOnto [] s

/-- A string without its complete colour codes. -/
def stripString (s : String) : String :=
  String.ofList (strip s.toList)

/-- The styles that the program writes. -/
inductive Style where
  | red | yellow | green
  | brightRed | brightGreen | brightYellow | brightBlue | brightMagenta
  | bold | dimmed
  deriving DecidableEq, Repr

/-- The parameter that turns a style on. -/
def Style.on : Style → String
  | .red => "31" | .yellow => "33" | .green => "32"
  | .brightRed => "91" | .brightGreen => "92" | .brightYellow => "93"
  | .brightBlue => "94" | .brightMagenta => "95"
  | .bold => "1" | .dimmed => "2"

/-- The parameter that turns a style off: a colour goes back to the default
colour, the others reset everything. -/
def Style.off : Style → String
  | .bold | .dimmed => "0"
  | _ => "39"

/-- One escape sequence: the bracket, its parameters and its final letter. -/
def sequence (parameters final : String) : String :=
  "\x1b[" ++ parameters ++ final

/-- A text between the codes of a style. -/
def paint (style : Style) (s : String) : String :=
  sequence style.on "m" ++ s ++ sequence style.off "m"

/-- A text in a colour and bold; the bold codes stand outside. -/
def paintBold (style : Style) (s : String) : String :=
  paint .bold (paint style s)

end SongPreview.Colour
