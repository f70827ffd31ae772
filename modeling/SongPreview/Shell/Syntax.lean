/-!
# Scripts

A script of the command language as a tree. Words are kept in pieces, since what they
stand for depends on the variables at the time.
-/

namespace SongPreview.Shell

/-- What is asked of a variable. -/
inductive Form where
  | value
  | length
  /-- A word in its place: `-`, `=`, `+` or `?`. With `empty`, an empty value counts as
  none. -/
  | instead (kind : Char) (empty : Bool) (word : String)
  /-- The value without a part that fits a pattern, at the front or at the end. -/
  | without (atEnd longest : Bool) (pattern : String)
  deriving DecidableEq, Repr

/-- A part of a word. -/
inductive Piece where
  | text (s : String) (quoted : Bool)
  | variable (name : String) (form : Form) (quoted : Bool)
  /-- The output of a script. -/
  | output (script : String) (quoted : Bool)
  /-- The value of an expression. -/
  | number (expression : String) (quoted : Bool)
  deriving DecidableEq, Repr

/-- A word in its pieces. -/
abbrev Word := List Piece

/-- Where a redirection leads. -/
inductive Target where
  | read (path : Word)
  | write (path : Word)
  | append (path : Word)
  /-- The same as another number, or nothing for a hyphen. -/
  | same (as : Word)
  /-- A text in the script itself. -/
  | text (body : Word)
  deriving DecidableEq, Repr

/-- A redirection of one number. -/
structure Redirect where
  fd : Nat
  target : Target
  deriving DecidableEq, Repr

/-- A script. -/
inductive Script where
  | skip
  | simple (line : Nat) (assignments : List (String × Word)) (words : List Word)
      (redirects : List Redirect)
  | redirected (body : Script) (redirects : List Redirect)
  | pipe (left right : Script)
  | negated (body : Script)
  | both (left right : Script)
  | either (left right : Script)
  | sequence (left right : Script)
  | background (body : Script)
  | subshell (body : Script)
  | branch (condition yes no : Script)
  /-- A loop as long as the condition holds, or until it does. -/
  | loop (until? : Bool) (condition body : Script)
  /-- A loop over words, or over the arguments. -/
  | each (name : String) (words : Option (List Word)) (body : Script)
  /-- A body for a word that fits one of some patterns, and what else to try. -/
  | choice (subject : Word) (patterns : List Word) (body rest : Script)
  | define (name : String) (body : Script)
  deriving Repr

end SongPreview.Shell
