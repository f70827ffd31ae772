import SongPreview.Path
import SongPreview.Text

/-!
# Faults of the machine

Why an operation on files or programs did not succeed.
-/

namespace SongPreview

/-- A fault of the machine. -/
inductive Fault where
  | notFound
  | noSuchDevice
  | tooManyArguments
  | notExecutable
  | permission
  | busy
  | taken
  | notDirectory
  | isDirectory
  | tooLarge
  | nameTooLong
  | tooManyLinks
  | directoryNotEmpty
  /-- A name with a NUL character in it. -/
  | nulInName
  /-- An argument or a program name with a NUL character in it. -/
  | nulInArgument
  /-- A file that was to be read as text and is not well-formed. -/
  | illFormedText
  /-- A path none of whose ancestors can be made. -/
  | noRoot
  deriving DecidableEq, Repr

namespace Fault

/-- What a fault is, in words. -/
def words : Fault → String
  | notFound => "No such file or directory"
  | noSuchDevice => "No such device or address"
  | tooManyArguments => "Argument list too long"
  | notExecutable => "Exec format error"
  | permission => "Permission denied"
  | busy => "Device or resource busy"
  | taken => "File exists"
  | notDirectory => "Not a directory"
  | isDirectory => "Is a directory"
  | tooLarge => "File too large"
  | nameTooLong => "File name too long"
  | directoryNotEmpty => "Directory not empty"
  | tooManyLinks => "Too many levels of symbolic links"
  | nulInName => "file name contained an unexpected NUL byte"
  | nulInArgument => "nul byte found in provided data"
  | illFormedText => "stream did not contain valid UTF-8"
  | noRoot => "failed to create whole tree"

/-- The number of a fault that the machine itself reports. -/
def number? : Fault → Option Nat
  | notFound => some 2
  | noSuchDevice => some 6
  | tooManyArguments => some 7
  | notExecutable => some 8
  | permission => some 13
  | busy => some 16
  | taken => some 17
  | notDirectory => some 20
  | isDirectory => some 21
  | tooLarge => some 27
  | nameTooLong => some 36
  | directoryNotEmpty => some 39
  | tooManyLinks => some 40
  | nulInName | nulInArgument | illFormedText | noRoot => none

/-- The wording of a fault, with its number. -/
def message (f : Fault) : String :=
  f.words ++ f.number?.elim "" fun n => " (os error " ++ toString n ++ ")"

/-- The wording of a fault about a temporary file. -/
def atPath (f : Fault) (p : Path) : String :=
  f.message ++ " at path " ++ Text.quoted p.text

end Fault

end SongPreview
