import RoutedExperts.Numeric.Literal
import RoutedExperts.Run.Options
import RoutedExperts.Run.Settings

/-!
# Command lines

A command line names a command and then its flags, with values behind a blank or an equals sign. The
value of a flag behind a blank is only looked at when the next flag begins or the line ends, so a
word that has no place there is reported before it.
-/

namespace RoutedExperts

/-- Why a command line does not lead to a command. -/
inductive UsageError where
  /-- There is no command. -/
  | noCommand
  /-- Help was asked for. -/
  | help
  | unknownCommand (word : String)
  | unknownArgument (word : String)
  | repeated (flag : String)
  | missingValue (flag : String)
  /-- The value is none of the names that a flag takes. -/
  | unknownName (flag value : String)
  /-- The value cannot be read. -/
  | malformed (flag value : String)
  /-- A flag without a value has one. -/
  | superfluousValue (flag : String)
  deriving DecidableEq, Repr

/-- A command with its options. -/
inductive Command where
  | run (options : RunOptions)
  | config (options : RunOptions) (save : Bool)

namespace Command

/-- The options of a command. -/
def options : Command → RunOptions
  | run o => o
  | config o _ => o

/-- The options of a command where one level of logging may come from the environment. -/
def withLogLevel (level : Option String) : Command → Command
  | run o => run { o with logLevel := o.logLevel.or level }
  | config o save => config { o with logLevel := o.logLevel.or level } save

end Command

/-- A flag with a value. -/
structure Flag where
  name : String
  /-- What the flag is for. -/
  purpose : String
  /-- Whether a negative number may follow behind a blank. -/
  takesNegative : Bool := false
  given : RunOptions → Bool
  assign : String → RunOptions → Except UsageError RunOptions

namespace Flag

/-- An assignment of a value that a reader accepts. -/
def reading {α : Type} (name : String) (read : String → Option α)
    (set : α → RunOptions → RunOptions) (text : String) (o : RunOptions) :
    Except UsageError RunOptions :=
  match read text with
  | some a => .ok (set a o)
  | none => .error (.malformed name text)

/-- A flag for a natural number of 64 bits. -/
def size (name purpose : String) (given : RunOptions → Bool)
    (set : Nat → RunOptions → RunOptions) : Flag :=
  { name, purpose, given, assign := reading name (Literal.natBelow? (twoTo 64)) set }

/-- Sets the workload; only its exact name will do. -/
def assignMode (text : String) (o : RunOptions) : Except UsageError RunOptions :=
  if (Mode.ofName? text).isSome then .ok { o with mode := some text }
  else .error (.unknownName "mode" text)

/-- All flags with a value. -/
def all : List Flag := [
  { name := "mode", purpose := "Workload kind", given := (·.mode.isSome), assign := assignMode },
  size "num-tokens" "Number of tokens" (·.tokens.isSome) fun n o => { o with tokens := some n },
  size "size-n" "Output features (hidden size in fused mode)" (·.columns.isSome) fun n o =>
    { o with columns := some n },
  size "size-k" "Input features" (·.rows.isSome) fun n o => { o with rows := some n },
  size "intermediate-size" "Expert FFN width (fused mode)" (·.intermediate.isSome) fun n o =>
    { o with intermediate := some n },
  size "num-experts" "Number of experts" (·.experts.isSome) fun n o => { o with experts := some n },
  size "topk" "Experts per token" (·.chosen.isSome) fun n o => { o with chosen := some n },
  { name := "bits", purpose := "Weight bits (4 or 8)", given := (·.bits.isSome)
    assign := reading "bits" (Literal.intBetween? 0 (twoTo 32 - 1)) fun z o =>
      { o with bits := some z.toNat } },
  { name := "group-size", purpose := "Quantization group size (-1 for per-channel)"
    takesNegative := true, given := (·.groupSize.isSome)
    assign := reading "group-size" (Literal.intBetween? (-twoTo 31) (twoTo 31 - 1)) fun z o =>
      { o with groupSize := some z } },
  size "moe-block-size"
    "Token block size (16, 32, 48 or 64); chosen from the batch when unset" (·.block.isSome)
    fun n o => { o with block := some n },
  size "iterations" "Timed iterations" (·.iterations.isSome) fun n o =>
    { o with iterations := some n },
  size "warmup" "Untimed warmup iterations" (·.warmup.isSome) fun n o =>
    { o with warmup := some n },
  size "seed" "Random seed for the synthetic workload" (·.seed.isSome) fun n o =>
    { o with seed := some n },
  { name := "tolerance", purpose := "Maximum relative error tolerated against the dense reference"
    given := (·.tolerance.isSome)
    assign := reading "tolerance" Literal.single? fun x o => { o with tolerance := some x } },
  { name := "log-level", purpose := "Log level (trace, debug, info, warn, error)"
    given := (·.logLevel.isSome), assign := fun s o => .ok { o with logLevel := some s } }]

/-- The flag of a name. -/
def find? (name : String) : Option Flag := all.find? (·.name == name)

/-- Gives a flag its value. -/
def give (f : Flag) (text : String) (o : RunOptions) : Except UsageError RunOptions :=
  if f.given o then .error (.repeated f.name) else f.assign text o

end Flag

namespace Arguments

/-- A command line read so far. -/
structure Progress where
  options : RunOptions := {}
  save : Bool := false
  /-- The last flag and the word behind it, not looked at yet. -/
  pending : Option (Flag × Option String) := none
  /-- Whether flags are over. -/
  closed : Bool := false

/-- Gives the last flag its value. -/
def settle (p : Progress) : Except UsageError Progress :=
  match p.pending with
  | none => .ok p
  | some (flag, none) => .error (.missingValue flag.name)
  | some (flag, some text) => do
    return { p with options := ← flag.give text p.options, pending := none }

/-- Whether the rest of a word behind a minus sign looks like a number: digits, a point before any
exponent, and an exponent mark that is neither first nor last. -/
def looksNumeric (cs : List Char) : Bool :=
  let (whole, rest) := cs.span fun c => c.isDigit || c == '.'
  let points := (whole.filter (· == '.')).length
  points ≤ 1 && whole.head? != some '.' &&
    match rest with
    | [] => true
    | mark :: behind =>
      (mark == 'e' || mark == 'E') && !whole.isEmpty && !behind.isEmpty && behind.all Char.isDigit

/-- A name and, behind an equals sign, a value. -/
def splitValue (cs : List Char) : String × Option String :=
  match cs.span (· != '=') with
  | (name, _ :: value) => (String.ofList name, some (String.ofList value))
  | (name, []) => (String.ofList name, none)

/-- A word that begins with two dashes. -/
def longFlag (savable : Bool) (p : Progress) (word : String) (name : String)
    (value : Option String) : Except UsageError Progress :=
  if name = "help" then
    match value with
    | some _ => .error (.superfluousValue name)
    | none => do
      let _ ← settle p
      throw .help
  else if savable ∧ name = "save" then
    match value with
    | some _ => .error (.superfluousValue name)
    | none => do
      let p ← settle p
      if p.save then throw (.repeated name)
      return { p with save := true }
  else match Flag.find? name with
    | none => .error (.unknownArgument word)
    | some flag => do
      let p ← settle p
      match value with
      | none => return { p with pending := some (flag, none) }
      | some text => return { p with options := ← flag.give text p.options }

/-- A word that is no long flag: the value of the last flag, or out of place. -/
def plainWord (p : Progress) (word : String) : Except UsageError Progress :=
  match p.pending with
  | some (flag, none) => .ok { p with pending := some (flag, some word) }
  | _ => .error (.unknownArgument word)

/-- A word that begins with one dash. -/
def shortFlag (p : Progress) (word : String) (letters : List Char) : Except UsageError Progress :=
  let takesNegative := match p.pending with
    | some (flag, none) => flag.takesNegative
    | _ => false
  if takesNegative && looksNumeric letters then plainWord p word
  else if letters.head? = some 'h' then do
    let _ ← settle p
    throw .help
  else .error (.unknownArgument word)

/-- Takes one word of a command's flags. -/
def step (savable : Bool) (p : Progress) (word : String) : Except UsageError Progress :=
  if p.closed then .error (.unknownArgument word)
  else match word.toList with
    | ['-', '-'] => .ok { p with closed := true }
    | '-' :: '-' :: rest =>
      let (name, value) := splitValue rest
      longFlag savable p word name value
    | '-' :: letter :: letters => shortFlag p word (letter :: letters)
    | _ => plainWord p word

/-- Reads the flags of a command. -/
def flags (savable : Bool) (words : List String) : Except UsageError Progress := do
  settle (← words.foldlM (step savable) {})

/-- The names of the commands. -/
def commands : List String := ["run", "config", "help"]

/-- Reads what follows the request for help: at most one command. -/
def helpFor : List String → UsageError
  | [] => .help
  | [word] => if commands.contains word then .help else .unknownCommand word
  | first :: second :: _ =>
    .unknownCommand (if commands.contains first then second else first)

/-- Reads what follows the end of flags where a command should be. -/
def behindFlags : List String → UsageError
  | [] => .noCommand
  | word :: _ => if commands.contains word then .unknownArgument word else .unknownCommand word

/-- A first word that is no command. -/
def notCommand (word : String) (rest : List String) : UsageError :=
  match word.toList with
  | ['-', '-'] => behindFlags rest
  | '-' :: '-' :: chars =>
    match splitValue chars with
    | ("help", none) => .help
    | ("help", some _) => .superfluousValue "help"
    | _ => .unknownArgument word
  | '-' :: letter :: _ => if letter = 'h' then .help else .unknownArgument word
  | _ => .unknownCommand word

/-- The command of a command line. -/
def parse : List String → Except UsageError Command
  | [] => .error .noCommand
  | word :: rest =>
    if word = "run" then do
      return .run (← flags false rest).options
    else if word = "config" then do
      let p ← flags true rest
      return .config p.options p.save
    else if word = "help" then .error (helpFor rest)
    else .error (notCommand word rest)

end Arguments

end RoutedExperts
