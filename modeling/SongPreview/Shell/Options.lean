import SongPreview.Shell.Bytes

/-!
# Options of programs

Options are words that begin with a hyphen. They may stand between the other words, up
to a double hyphen. Long names may be shortened as long as one name is meant.
-/

namespace SongPreview.Shell

/-- The options of a program: letters without a value, letters with one, and long names
that stand for a letter. -/
structure Options where
  flags : List Char := []
  valued : List Char := []
  long : List (String × Char) := []
  /-- Whether the first other word ends the options. -/
  leading : Bool := false
  deriving Repr

/-- The options that were given with their values, and the other words. -/
structure Given where
  options : List (Char × String) := []
  words : List String := []
  deriving DecidableEq, Repr

namespace Given

/-- Whether an option was given. -/
def has (g : Given) (c : Char) : Bool :=
  g.options.any fun o => o.1 = c

/-- The last value of an option. -/
def value? (g : Given) (c : Char) : Option String :=
  (g.options.reverse.find? fun o => o.1 = c).map Prod.snd

end Given

namespace Options

/-- Reads the letters of one word. A value is the rest of the word or the next one. -/
def letters (o : Options) (out : Given) : List Char → List String →
    Except String (Given × List String)
  | [], words => .ok (out, words)
  | c :: rest, words =>
    if c ∈ o.valued then
      match rest, words with
      | _ :: _, _ =>
        .ok ({ out with options := out.options ++ [(c, String.ofList rest)] }, words)
      | [], value :: words => .ok ({ out with options := out.options ++ [(c, value)] }, words)
      | [], [] => .error ("option requires an argument -- '" ++ String.ofList [c] ++ "'")
    else if c ∈ o.flags then letters o { out with options := out.options ++ [(c, "")] } rest words
    else .error ("invalid option -- '" ++ String.ofList [c] ++ "'")

/-- Reads a long name, perhaps with a value behind an equals sign. -/
def longName (o : Options) (out : Given) (word : String) (words : List String) :
    Except String (Given × List String) :=
  let (name, value) := splitAtChar '=' (word.toList.drop 2)
  let name := String.ofList name
  let candidates :=
    match o.long.lookup name with
    | some c => [(name, c)]
    | none => o.long.filter fun l => l.1.startsWith name
  match candidates with
  | [(full, c)] =>
    let attached := '=' ∈ word.toList
    let add (value : String) : Given := { out with options := out.options ++ [(c, value)] }
    if c ∈ o.valued then
      if attached then .ok (add (String.ofList value), words)
      else
        match words with
        | value :: words => .ok (add value, words)
        | [] => .error ("option '--" ++ full ++ "' requires an argument")
    else if attached then .error ("option '--" ++ full ++ "' doesn't allow an argument")
    else .ok (add "", words)
  | _ => .error ("unrecognized option '" ++ word ++ "'")

/-- Reads words. The first number bounds their number. -/
def readFrom (o : Options) : Nat → Given → List String → Except String Given
  | 0, out, words => .ok { out with words := out.words ++ words }
  | _, out, [] => .ok out
  | bound + 1, out, word :: words =>
    if word = "--" then .ok { out with words := out.words ++ words }
    else
      match word.toList with
      | '-' :: '-' :: _ => do
        let (out, words) ← longName o out word words
        readFrom o bound out words
      | '-' :: c :: rest => do
        let (out, words) ← letters o out (c :: rest) words
        readFrom o bound out words
      | _ =>
        if o.leading then .ok { out with words := out.words ++ word :: words }
        else readFrom o bound { out with words := out.words ++ [word] } words

/-- Reads the words that a program was given. -/
def read (o : Options) (words : List String) : Except String Given :=
  o.readFrom words.length {} words

end Options

end SongPreview.Shell
