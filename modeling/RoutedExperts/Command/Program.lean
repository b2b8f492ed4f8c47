import RoutedExperts.Command.Arguments
import RoutedExperts.Log.Filter
import RoutedExperts.Run.Workload

/-!
# The program

What the program does, given its command line, its environment and the text of its options file.
`Program.run` answers with a transcript: what is printed, what is logged, and the options file
afterwards. Times are not part of it.
-/

namespace RoutedExperts

/-- The variables of the environment that the program looks at. -/
structure Environment where
  logLevel : Option String := none
  logFilter : Option String := none
  logFormat : Option String := none
  deriving DecidableEq, Repr

/-- What the program starts from. -/
structure Session where
  words : List String
  environment : Environment := {}
  /-- The text of the options file, if there is one. -/
  stored : Option String := none

/-- What the program did. -/
structure Transcript where
  /-- The text or the headline that was printed. -/
  printed : Option String := none
  /-- The events that the filter kept. -/
  logged : List Event := []
  failure : Option RunError := none
  saved : Bool := false
  /-- The text of the options file afterwards. -/
  stored : Option String := none

namespace RunError

/-- The exit code of a failure. -/
def exitCode : RunError → Nat
  | failed cause => if cause.kind = .fatal then 101 else 1
  | _ => 1

end RunError

namespace UsageError

/-- The exit code of a command line without a command. Help is no failure. -/
def exitCode : UsageError → Nat
  | help => 0
  | _ => 2

end UsageError

namespace Report

/-- The first part of the line that a run prints. -/
def headline (r : Report) (s : RunSettings) : String :=
  r.mode.name ++ " tokens=" ++ toString s.tokens ++ " experts=" ++ toString s.experts ++
    " topk=" ++ toString s.chosen ++ " block=" ++ toString r.block.size

end Report

namespace Transcript

/-- The exit code of the program. -/
def exitCode (t : Transcript) : Nat :=
  match t.failure with
  | none => 0
  | some e => e.exitCode

end Transcript

namespace Program

/-- The options of the file; a file that cannot be read counts for nothing. -/
def storedOptions (s : Session) : RunOptions :=
  match RunOptions.load s.stored with
  | .ok o => o
  | .error _ => {}

/-- The options in force: those of the command line, and those of the file for the others. -/
def effective (stored : RunOptions) (c : Command) : RunOptions := stored.merge c.options

/-- The command of a session. -/
def command (s : Session) : Except UsageError Command := do
  return (← Arguments.parse s.words).withLogLevel s.environment.logLevel

/-- The filter of a session's log. -/
def filter (s : Session) (o : RunOptions) : LogFilter :=
  LogFilter.choose s.environment.logFilter (o.logLevel.getD "info")

/-- The format of a session's log. -/
def format (s : Session) : LogFormat := LogFormat.ofName (s.environment.logFormat.getD "")

/-- Shows the options in force, and saves them if asked to. -/
def showOptions (s : Session) (o : RunOptions) (save : Bool) : Transcript :=
  match RunSettings.resolve o with
  | .error e => { failure := some e, stored := s.stored }
  | .ok _ =>
    match o.toText? with
    | none => { failure := some .unwritable, stored := s.stored }
    | some text =>
      { printed := some text, saved := save, stored := if save then some text else s.stored }

/-- Runs the workload of the options in force. -/
def runWorkload (s : Session) (o : RunOptions) : Transcript :=
  match RunSettings.resolve o with
  | .error e => { failure := some e, stored := s.stored }
  | .ok settings =>
    let keep (events : List Event) := events.filter (filter s o).keeps
    match Workload.run settings with
    | (events, .error e) => { logged := keep events, failure := some e, stored := s.stored }
    | (events, .ok report) =>
      { printed := some (report.headline settings)
        logged := keep (events ++ [Trace.completed report.mode report.block])
        stored := s.stored }

/-- The whole program. -/
def run (s : Session) : Except UsageError Transcript := do
  let c ← command s
  let o := effective (storedOptions s) c
  match c with
  | .run _ => return runWorkload s o
  | .config _ save => return showOptions s o save

end Program

end RoutedExperts
