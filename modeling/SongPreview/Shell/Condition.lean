import SongPreview.Machine
import SongPreview.Shell.Bytes

/-!
# Conditions

A condition is a row of words that says something about texts, numbers or files. What it
means depends first on how many words there are.
-/

namespace SongPreview.Shell.Condition

/-- What is wrong with a condition. -/
inductive Mistake where
  | notANumber (text : String)
  | unexpected (word : String)
  deriving DecidableEq, Repr

/-- The condition that a word and its operand make. -/
def unary (m : Machine) (operator operand : String) : Option Bool :=
  let p : Path := ⟨cooked operand⟩
  match operator with
  | "-n" => some (operand ≠ "")
  | "-z" => some (operand = "")
  | "-e" | "-r" | "-w" => some (m.exists? p)
  | "-f" => some (m.isFile p)
  | "-d" => some (m.isDirectory p)
  | "-x" => some (m.isDirectory p || match m.find p with
      | .ok (_, .file _ executable) => executable
      | .ok (_, .tool _) => true
      | _ => false)
  | "-s" => some (match m.find p with
      | .ok (_, .file content _) => content.size ≠ 0
      | .ok (_, .directory) | .ok (_, .tool _) => true
      | _ => false)
  | "-c" => some (match m.find p with
      | .ok (_, .device _) => true
      | _ => false)
  | "-L" | "-h" => some (match m.tree.lastStep m.workDir p with
      | .ok ⟨dir, .name name, _⟩ =>
        match m.tree.get? (name :: dir) with
        | some (.link _) => true
        | _ => false
      | _ => false)
  | "-t" | "-p" | "-S" | "-b" | "-u" | "-g" | "-k" => some false
  | _ => none

/-- The operators between two numbers. -/
def comparisons : List (String × (Int → Int → Bool)) :=
  [("-eq", fun a b => a = b), ("-ne", fun a b => a ≠ b), ("-lt", fun a b => a < b),
    ("-le", fun a b => a ≤ b), ("-gt", fun a b => b < a), ("-ge", fun a b => b ≤ a)]

/-- The number of a word. -/
def number (w : String) : Except Mistake Int :=
  match integer? w.trimAscii.toString with
  | some n => .ok n
  | none => .error (.notANumber w)

/-- The condition that an operator and its operands make, if it is one. -/
def binary (left operator right : String) : Option (Except Mistake Bool) :=
  match operator with
  | "=" | "==" => some (.ok (left = right))
  | "!=" => some (.ok (left ≠ right))
  | "<" => some (.ok (left < right))
  | ">" => some (.ok (right < left))
  | _ =>
    (comparisons.lookup operator).map fun holds => do
      return holds (← number left) (← number right)

/-- The words before and behind the first of a given word, unless it comes first. -/
def splitAtWord (w : String) : List String → Option (List String × List String)
  | a :: b :: rest =>
    if b = w then some ([a], rest)
    else (splitAtWord w (b :: rest)).map fun (before, behind) => (a :: before, behind)
  | _ => none

/-- Whether a condition holds. The first number bounds the row of words. -/
def holds (m : Machine) : Nat → List String → Except Mistake Bool
  | 0, _ | _, [] => .ok false
  | _, [a] => .ok (a ≠ "")
  | bound + 1, words =>
    let longer : Except Mistake Bool :=
      match splitAtWord "-o" words, splitAtWord "-a" words with
      | some (left, right), _ => do
        if ← holds m bound left then return true
        holds m bound right
      | none, some (left, right) => do
        if ← holds m bound left then holds m bound right else return false
      | none, none =>
        match words with
        | "!" :: rest => do return !(← holds m bound rest)
        | "(" :: rest =>
          if rest.getLast? = some ")" then holds m bound rest.dropLast
          else .error (.unexpected "(")
        | [a, b] =>
          match unary m a b with
          | some result => .ok result
          | none => .error (.unexpected a)
        | _ :: b :: _ => .error (.unexpected b)
        | _ => .error (.unexpected "")
    match words with
    | [a, operator, b] =>
      match binary a operator b with
      | some result => result
      | none => longer
    | _ => longer

/-- Whether the condition of some words holds. -/
def check (m : Machine) (words : List String) : Except Mistake Bool :=
  holds m (words.length + 1) words

end SongPreview.Shell.Condition
