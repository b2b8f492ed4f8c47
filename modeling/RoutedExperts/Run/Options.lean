import RoutedExperts.Toml.Printer

/-!
# Run options

The options of a run as a file or a command line gives them: each of them may be left open.
`RunOptions.load` reads a file of options, and `RunOptions.merge` lays one source over another.
-/

namespace RoutedExperts

/-- Why a file gave no options. -/
inductive LoadError where
  /-- There is no such file. -/
  | missing
  /-- The text of the file is no document of options. -/
  | malformed
  deriving DecidableEq, Repr

/-- The message of a failure. -/
def LoadError.message : LoadError → String
  | missing => "IO error: No such file or directory (os error 2)"
  | malformed => "Parse error"

/-- The options of a run, each of which may be left open. -/
structure RunOptions where
  /-- The name of the workload. -/
  mode : Option String := none
  tokens : Option Nat := none
  columns : Option Nat := none
  rows : Option Nat := none
  intermediate : Option Nat := none
  experts : Option Nat := none
  /-- Experts per token. -/
  chosen : Option Nat := none
  bits : Option Nat := none
  groupSize : Option Int := none
  block : Option Nat := none
  iterations : Option Nat := none
  warmup : Option Nat := none
  seed : Option Nat := none
  tolerance : Option Float32 := none
  logLevel : Option String := none
  deriving BEq, Repr, Inhabited

namespace RunOptions

/-- The options of `later` where they are given, and of `base` elsewhere. -/
def merge (base later : RunOptions) : RunOptions where
  mode := later.mode.or base.mode
  tokens := later.tokens.or base.tokens
  columns := later.columns.or base.columns
  rows := later.rows.or base.rows
  intermediate := later.intermediate.or base.intermediate
  experts := later.experts.or base.experts
  chosen := later.chosen.or base.chosen
  bits := later.bits.or base.bits
  groupSize := later.groupSize.or base.groupSize
  block := later.block.or base.block
  iterations := later.iterations.or base.iterations
  warmup := later.warmup.or base.warmup
  seed := later.seed.or base.seed
  tolerance := later.tolerance.or base.tolerance
  logLevel := later.logLevel.or base.logLevel

/-- The names of the options, in the order in which they are written. -/
def keys : List String :=
  ["mode", "num_tokens", "size_n", "size_k", "intermediate_size", "num_experts", "topk", "bits",
    "group_size", "moe_block_size", "iterations", "warmup", "seed", "tolerance", "log_level"]

/-- The fields of a document: a table with any of the options, or a list of all of them. -/
def fields? : Value → Option (List (String × Value))
  | .table entries => some entries
  | .list values => if values.length = keys.length then some (keys.zip values) else none
  | _ => none

/-- Reads options from a document. An option that is null is left open, and other keys are passed
over. -/
def ofValue? (v : Value) : Option RunOptions := do
  let fields ← fields? v
  let field {α : Type} (read : Value → Option α) (key : String) : Option (Option α) :=
    Value.defaulted? (Value.nullable? read) none key fields
  return {
    mode := ← field Value.text? "mode"
    tokens := ← field Value.size? "num_tokens"
    columns := ← field Value.size? "size_n"
    rows := ← field Value.size? "size_k"
    intermediate := ← field Value.size? "intermediate_size"
    experts := ← field Value.size? "num_experts"
    chosen := ← field Value.size? "topk"
    bits := ← field (Value.natBelow? (twoTo 32)) "bits"
    groupSize := ← field (Value.signed? 32) "group_size"
    block := ← field Value.size? "moe_block_size"
    iterations := ← field Value.size? "iterations"
    warmup := ← field Value.size? "warmup"
    seed := ← field Value.size? "seed"
    tolerance := ← field Value.single? "tolerance"
    logLevel := ← field Value.text? "log_level" }

/-- Reads the text of an options file. -/
def ofText? (text : String) : Option RunOptions := do
  ofValue? (.table (← Toml.parse? text))

/-- Reads an options file, given its text if there is such a file. -/
def load (file : Option String) : Except LoadError RunOptions :=
  match file with
  | none => .error .missing
  | some text =>
    match ofText? text with
    | none => .error .malformed
    | some o => .ok o

/-- The options that are given, in the order in which they are written. -/
def entries (o : RunOptions) : List (String × Value) :=
  let entry {α : Type} (key : String) (given : Option α) (write : α → Value) :
      List (String × Value) := (given.map fun a => (key, write a)).toList
  let size (n : Nat) : Value := .integer n
  entry "mode" o.mode .text ++ entry "num_tokens" o.tokens size ++ entry "size_n" o.columns size ++
    entry "size_k" o.rows size ++ entry "intermediate_size" o.intermediate size ++
    entry "num_experts" o.experts size ++ entry "topk" o.chosen size ++ entry "bits" o.bits size ++
    entry "group_size" o.groupSize .integer ++ entry "moe_block_size" o.block size ++
    entry "iterations" o.iterations size ++ entry "warmup" o.warmup size ++
    entry "seed" o.seed size ++
    entry "tolerance" o.tolerance (fun x => .real (Double.ofSingle x)) ++
    entry "log_level" o.logLevel .text

/-- The text of an options file, unless an option does not fit the notation's integers. -/
def toText? (o : RunOptions) : Option String := Toml.render? o.entries

end RunOptions

end RoutedExperts
