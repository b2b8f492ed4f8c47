import RoutedExperts.Command.Arguments

/-!
# Help texts

The texts that explain the program and its commands, and the line that says what is wrong with a
command line.
-/

namespace RoutedExperts

namespace Help

/-- The name of the program. -/
def program : String := "marlin-moe"

/-- What each command is for. -/
def purposes : List (String × String) := [
  ("run", "Run a synthetic workload, verify it against a dense reference and time it"),
  ("config", "Show the effective configuration, optionally saving it to the config file"),
  ("help", "Print this message or the help of the given subcommand(s)")]

/-- Two columns, the second of which begins at the same place in every line. -/
def columns (rows : List (String × String)) : List String :=
  let width := (rows.map fun (left, _) => left.length).foldl max 0
  rows.map fun (left, right) =>
    left ++ String.ofList (List.replicate (width + 2 - left.length) ' ') ++ right

/-- The help of the program. -/
def overview : List String :=
  ["Run and verify the grouped Marlin MoE GEMM on synthetic workloads", "",
    "Usage: " ++ program ++ " <COMMAND>", "", "Commands:"] ++
  columns (purposes.map fun (name, purpose) => ("  " ++ name, purpose)) ++
  ["", "Options:", "  -h, --help  Print help"]

/-- The name of a flag's value. -/
def valueName (flag : String) : String :=
  String.ofList (flag.toList.map fun c => if c = '-' then '_' else c.toUpper)

/-- The flags of a command. -/
def flagRows (savable : Bool) : List (String × String) :=
  Flag.all.map (fun f => ("      --" ++ f.name ++ " <" ++ valueName f.name ++ ">", f.purpose)) ++
  (if savable then [("      --save", "Write the merged configuration to the config file")]
    else []) ++
  [("  -h, --help", "Print help")]

/-- The help of a command. -/
def command (name : String) : List String :=
  [((purposes.find? (·.1 == name)).map (·.2)).getD "", "",
    "Usage: " ++ program ++ " " ++ name ++ " [OPTIONS]", "", "Options:"] ++
  columns (flagRows (name == "config"))

/-- The help that a command line asks for. -/
def text (words : List String) : String :=
  let named := words.find? fun w => w == "run" || w == "config"
  let lines := match named with
    | some name => command name
    | none => overview
  String.join (lines.map (· ++ "\n"))

end Help

namespace UsageError

/-- What is wrong with a command line. -/
def message : UsageError → String
  | noCommand => "a command is missing"
  | help => "help was asked for"
  | unknownCommand word => s!"unrecognized subcommand '{word}'"
  | unknownArgument word => s!"unexpected argument '{word}' found"
  | repeated flag => s!"the argument '--{flag}' cannot be used multiple times"
  | missingValue flag => s!"a value is required for '--{flag}' but none was supplied"
  | unknownName flag value => s!"invalid value '{value}' for '--{flag}'"
  | malformed flag value => s!"invalid value '{value}' for '--{flag}'"
  | superfluousValue flag => s!"unexpected value for '--{flag}' found; no more were expected"

end UsageError

end RoutedExperts
