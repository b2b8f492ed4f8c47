import RoutedExperts.Command.Help
import RoutedExperts.Command.Program
import RoutedExperts.Run.Timing

/-!
# The command line program

Reads the environment and the options file, runs the program and prints. Everything that is decided
is decided in `Program`; passes are repeated here only to be timed.
-/

namespace RoutedExperts

namespace Main

/-- The place of the options file, if the environment has one for such files. -/
def optionsPath : IO (Option (String × String)) := do
  let base ← match ← IO.getEnv "XDG_CONFIG_HOME" with
    | some dir => pure (some dir)
    | none => do pure ((← IO.getEnv "HOME").map (· ++ "/.config"))
  return base.map fun dir => (dir ++ "/marlin-moe", dir ++ "/marlin-moe/config.toml")

/-- The text of a file, if it can be read. -/
def readText (path : String) : IO (Option String) := do
  try
    return some (← IO.FS.readFile path)
  catch _ => return none

/-- The session of the process. -/
def session (words : List String) : IO Session := do
  let stored ← match ← optionsPath with
    | some (_, path) => do
      let text ← readText path
      if text.isSome then IO.eprintln ("Loaded config from: " ++ path)
      pure text
    | none => pure none
  return {
    words := words
    environment :=
      { logLevel := ← IO.getEnv "MARLIN_MOE_LOG_LEVEL"
        logFilter := ← IO.getEnv "RUST_LOG"
        logFormat := ← IO.getEnv "MARLIN_MOE_LOG_FORMAT" }
    stored := stored }

/-- Prints the events that the filter keeps. -/
def log (s : Session) (o : RunOptions) (events : List Event) : IO Unit := do
  let filter := Program.filter s o
  for e in events do
    if filter.keeps e then
      IO.println (match Program.format s with
        | .lines => e.line
        | .records => e.record)

/-- Prints a failure and gives its exit code. -/
def fail (e : RunError) : IO UInt32 := do
  IO.eprintln ("Error: " ++ e.message)
  return e.exitCode.toUInt32

/-- Repeats a pass; the times of all passes and the last result. -/
def timePasses (w : Workload) (count : Nat) : IO (Except Error (List Nat × Option Tensor)) := do
  let mut workspace := w.workspace
  let mut times : Array Nat := #[]
  let mut last : Option Tensor := none
  for _ in [0:count] do
    let start ← IO.monoNanosNow
    match w.pass workspace with
    | (.error e, _) => return .error e
    | (.ok result, after) =>
      let stop ← IO.monoNanosNow
      times := times.push (stop - start)
      last := some result
      workspace := after
  return .ok (times.toList, last)

/-- Runs and times a workload. -/
def runWorkload (s : Session) (o : RunOptions) : IO UInt32 := do
  match RunSettings.resolve o with
  | .error e => fail e
  | .ok settings =>
    log s o [Trace.started settings]
    match Workload.make settings with
    | .error e => fail (.failed e)
    | .ok w =>
      log s o w.made
      match ← timePasses w (settings.warmup + settings.iterations) with
      | .error e =>
        log s o w.reported
        fail (.failed e)
      | .ok (times, last) =>
        for _ in [0:settings.warmup + settings.iterations] do
          log s o w.reported
        let outcome := match last with
          | some result => w.report result
          | none => .error .noIterations
        match outcome with
        | .error e => fail e
        | .ok report =>
          let timing := Timing.ofPasses (times.drop settings.warmup)
          log s o [timing.completed report]
          IO.println (timing.summary (report.headline settings) report)
          return 0

/-- Prints the options in force and saves them if asked to. -/
def showOptions (s : Session) (o : RunOptions) (save : Bool) : IO UInt32 := do
  let t := Program.showOptions s o save
  IO.print (t.printed.getD "")
  match t.failure with
  | some e => fail e
  | none =>
    if t.saved then
      match ← optionsPath with
      | none =>
        IO.eprintln "Error: No config directory available"
        return 1
      | some (dir, path) =>
        IO.FS.createDirAll dir
        IO.FS.writeFile path (t.printed.getD "")
        IO.eprintln ("Saved config to: " ++ path)
    return 0

/-- Answers a command line without a command. -/
def refuse (words : List String) (e : UsageError) : IO UInt32 := do
  if e = .help then IO.print (Help.text words)
  else
    IO.eprintln ("error: " ++ e.message)
    IO.eprint (Help.text [])
  return e.exitCode.toUInt32

end Main

end RoutedExperts

open RoutedExperts in
/-- The program. -/
def main (words : List String) : IO UInt32 := do
  let s ← Main.session words
  match Program.command s with
  | .error e => Main.refuse words e
  | .ok c =>
    let o := Program.effective (Program.storedOptions s) c
    match c with
    | .run _ => Main.runWorkload s o
    | .config _ save => Main.showOptions s o save
