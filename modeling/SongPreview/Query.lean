import SongPreview.Child
import SongPreview.Colour
import SongPreview.Config
import SongPreview.RendererInfo.Reading
import SongPreview.Text
import SongPreview.Utf8

/-!
# Queries

A query runs a program to its end and takes all of its output. It fails if the program
cannot be started or does not end well. The renderer is asked about itself in this way.
-/

namespace SongPreview

/-- Why a query has no answer. -/
inductive QueryFault where
  /-- The program could not be started, or its end could not be learned. -/
  | start (word : String) (fault : Fault)
  /-- The program did not end well. What it said about that follows. -/
  | failed (word : String) (status : ExitStatus) (said : String)
  deriving DecidableEq, Repr

namespace QueryFault

/-- The wording of a fault, without its cause. -/
def message : QueryFault → String
  | start word _ => "Failed to run " ++ Path.quote word
  | failed word status said =>
    Path.quote word ++ " failed with " ++ status.text ++ (if said = "" then "" else "\n" ++ said)

/-- The fault's own cause, if it has one. -/
def cause? : QueryFault → Option String
  | start _ fault => some fault.message
  | failed .. => none

end QueryFault

/-- The output of a program that ended well. -/
structure Answer where
  output : ByteArray
  errors : ByteArray
  deriving DecidableEq

namespace Query

/-- The run of a command with further arguments, of which empty ones are left out. -/
def invocation (command arguments : List String) (program : Path) : Invocation where
  program
  name := command.headD ""
  arguments := command.drop 1 ++ arguments.filter (· ≠ "")
  input := none
  workDir := none

/-- What a program said about its end, as plain text. -/
def said (errors : ByteArray) : String :=
  Colour.stripString (Text.trimString (Utf8.decodeString errors))

/-- Runs a command to its end. A program that would never end is ended. -/
def run (host : Host) (m : Machine) (command arguments : List String) :
    Except QueryFault Answer × Machine :=
  let word := command.headD ""
  let started : Except Fault Started := do
    host.start m (invocation command arguments (← m.programFor word))
  match started with
  | .error fault => (.error (.start word fault), m)
  | .ok started =>
    let course := started.child []
    let errors := Course.joined course.errors
    let m := m.withTree course.tree
    match course.finished? with
    | some (_, .ok (.exited 0)) => (.ok ⟨Course.joined course.output, errors⟩, m)
    | some (_, .ok status) => (.error (.failed word status (said errors)), m)
    | some (_, .error fault) => (.error (.start word fault), m)
    | none => (.error (.failed word (.signalled 9) (said errors)), m)

end Query

/-- Why nothing is known of a renderer. -/
inductive InfoFault where
  | emptyCommand
  | query (fault : QueryFault)
  /-- The answer has another form. -/
  | malformed (text : String)
  deriving DecidableEq, Repr

namespace InfoFault

/-- The wording of a fault. -/
def message : InfoFault → String
  | emptyCommand => "renderer command is empty"
  | query fault => "renderer info query failed: " ++ fault.message
  | malformed text => "renderer info is not valid JSON: " ++ text

/-- The fault's own cause, if it has one. -/
def cause? : InfoFault → Option String
  | malformed text => some text
  | _ => none

end InfoFault

namespace RendererInfo

/-- Asks the renderer about itself. -/
def query (host : Host) (m : Machine) (config : Config.Renderer) :
    Except InfoFault RendererInfo × Machine :=
  if config.command.head?.all Text.isBlankString then (.error .emptyCommand, m)
  else
    match Query.run host m config.command config.infoArguments with
    | (.error fault, m) => (.error (.query fault), m)
    | (.ok answer, m) =>
      let printed := Utf8.decodeString answer.output
      match parse printed with
      | .ok info => (.ok info, m)
      | .error stop => (.error (.malformed (stop.message (objectText printed))), m)

end RendererInfo

end SongPreview
