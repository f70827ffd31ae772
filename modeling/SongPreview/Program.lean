import SongPreview.Command.Running
import SongPreview.CommandLine.Help
import SongPreview.CommandLine.Parsing
import SongPreview.Terminal

/-!
# The program

The program reads its command line, carries the command out and ends with a code: zero
if the command did its work, one if it did not, two if there was no command.
-/

namespace SongPreview

/-- The end of the program. -/
structure Exit where
  code : Nat
  console : Console
  machine : Machine

namespace Program

/-- What is said about a command line without a command. -/
def usageText : UsageFault → String
  | .nothing => HelpPage.text .overview
  | .missingCommand => "error: a subcommand is required\n"
  | .unknownCommand => "error: unrecognized subcommand\n"
  | .unknownArgument => "error: unexpected argument found\n"
  | .missingArgument => "error: a required argument was not provided\n"
  | .invalidValue | .invalidNumber => "error: invalid value\n"
  | .repeated => "error: an argument cannot be used multiple times\n"
  | .unexpectedValue => "error: unexpected value for an argument\n"
  | .help _ | .version => ""

/-- A command that cannot be carried out, since the song that is to be watched is not
there. -/
def missingSong? (m : Machine) : Command → Option CommandFault
  | .watch song .. => if m.isFile song then none else some (.noSong song)
  | _ => none

/-- What is printed before a command is carried out. -/
def greeting : Command → Console
  | .watch .. => .ofOut (Terminal.logLine "watch" "press Ctrl+C to stop")
  | _ => {}

/-- Carries out the command of a command line. -/
def runLine (host : Host) (m : Machine) (line : CommandLine) : Command.Done :=
  let done := Command.runLine host m line line.verbose false
  match done.result, missingSong? m line.command with
  | .ok (), some fault => { done with result := .error fault }
  | .ok (), none => { done with console := done.console ++ greeting line.command }
  | .error _, _ => done

/-- The files that a command line leads to from a directory: those that may be its
configuration, and the song. -/
def files (workDir : Path) (arguments : List String) : List Path :=
  match CommandLine.parse arguments with
  | .error _ => []
  | .ok line =>
    let configs :=
      if line.config.isAbsolute then [line.config]
      else (workDir :: workDir.parents).map fun dir => dir.join line.config
    let songs :=
      match line.command with
      | .watch song .. | .render song .. => [workDir.join song]
      | .info .. => []
    configs ++ songs

/-- Runs the program with its arguments. -/
def run (host : Host) (m : Machine) (arguments : List String) : Exit :=
  match CommandLine.parse arguments with
  | .error (.help page) => ⟨0, .ofOut page.text, m⟩
  | .error .version => ⟨0, .ofOut CommandLine.versionText, m⟩
  | .error fault => ⟨2, { err := usageText fault }, m⟩
  | .ok line =>
    let done := runLine host m line
    match done.result with
    | .ok () => ⟨0, done.console, done.machine⟩
    | .error fault =>
      ⟨1, done.console ++ { err := "Error: " ++ fault.report ++ "\n" }, done.machine⟩

end Program

end SongPreview
