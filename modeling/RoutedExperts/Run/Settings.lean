import RoutedExperts.Quantization.Settings
import RoutedExperts.Run.Options
import RoutedExperts.Text.LowerCase

/-!
# Run settings

The settings of a run after every open option has taken its default. `RunSettings.resolve` refuses
an unknown workload and a run with nothing to do.
-/

namespace RoutedExperts

/-- What a run multiplies. -/
inductive Mode where
  /-- One grouped product with weighted slots. -/
  | product
  /-- The two projections of a gated network. -/
  | network
  deriving DecidableEq, Repr, Inhabited

namespace Mode

/-- The name of a workload. -/
def name : Mode → String
  | product => "gemm"
  | network => "fused"

/-- The name of a workload in a listing of settings. -/
def title : Mode → String
  | product => "Gemm"
  | network => "Fused"

/-- The workload of a name in lower case. -/
def ofName? (name : String) : Option Mode :=
  if name = "gemm" then some product else if name = "fused" then some network else none

end Mode

/-- Why a run has no result. -/
inductive RunError where
  | unknownMode (name : String)
  | noIterations
  | noTokens
  | failed (cause : Error)
  | deviates (error tolerance : Float32)
  | unwritable
  deriving Repr

namespace RunError

/-- Numbers in messages have no superfluous point. -/
def numberStyle : Decimal.Style := { pointZero := false }

/-- The message of a failure. -/
def message : RunError → String
  | unknownMode name => s!"unknown mode '{name}', expected 'gemm' or 'fused'"
  | noIterations => "iterations must be at least 1"
  | noTokens => "num_tokens must be at least 1"
  | failed cause => cause.message
  | deviates error tolerance =>
    "result deviates from the dense reference: max relative error " ++
      Decimal.singleText numberStyle error ++ " > " ++ Decimal.singleText numberStyle tolerance
  | unwritable => "out-of-range value for u64 type"

end RunError

namespace Mode

/-- The workload of a name in any case. -/
def parse (name : String) : Except RunError Mode :=
  let lower := LowerCase.text name
  match ofName? lower with
  | some mode => .ok mode
  | none => .error (.unknownMode lower)

end Mode

/-- The settings of a run. -/
structure RunSettings where
  mode : Mode := .product
  tokens : Nat := 64
  columns : Nat := 512
  rows : Nat := 512
  intermediate : Nat := 256
  experts : Nat := 8
  chosen : Nat := 2
  bits : Nat := 4
  groupSize : Int := 128
  /-- A fixed block size; chosen for the batch when there is none. -/
  block : Option Nat := none
  iterations : Nat := 10
  warmup : Nat := 2
  seed : Nat := 0
  tolerance : Float32 := 1e-3
  deriving Repr, Inhabited

namespace RunSettings

/-- The settings of a workload with the given options, and defaults for the others. -/
def withDefaults (mode : Mode) (o : RunOptions) : RunSettings :=
  let d : RunSettings := {}
  { mode := mode
    tokens := o.tokens.getD d.tokens
    columns := o.columns.getD d.columns
    rows := o.rows.getD d.rows
    intermediate := o.intermediate.getD d.intermediate
    experts := o.experts.getD d.experts
    chosen := o.chosen.getD d.chosen
    bits := o.bits.getD d.bits
    groupSize := o.groupSize.getD d.groupSize
    block := o.block.or d.block
    iterations := o.iterations.getD d.iterations
    warmup := o.warmup.getD d.warmup
    seed := o.seed.getD d.seed
    tolerance := o.tolerance.getD d.tolerance }

/-- The settings that options give. -/
def resolve (o : RunOptions) : Except RunError RunSettings := do
  let mode ← match o.mode with
    | some name => Mode.parse name
    | none => pure .product
  let s := withDefaults mode o
  if s.iterations = 0 then throw .noIterations
  if s.tokens = 0 then throw .noTokens
  return s

/-- How the weights of a run are packed. -/
def quant (s : RunSettings) : QuantSettings := { bits := s.bits, groupSize := s.groupSize }

/-- Numbers in a listing have an exponent where they are very small or very large. -/
def numberStyle : Decimal.Style := { plain := some (-4, 15) }

/-- The settings on one line. -/
def listing (s : RunSettings) : String :=
  let block := match s.block with
    | none => "None"
    | some size => s!"Some({size})"
  let fields := [
    ("mode", s.mode.title), ("num_tokens", toString s.tokens), ("size_n", toString s.columns),
    ("size_k", toString s.rows), ("intermediate_size", toString s.intermediate),
    ("num_experts", toString s.experts), ("topk", toString s.chosen), ("bits", toString s.bits),
    ("group_size", toString s.groupSize), ("moe_block_size", block),
    ("iterations", toString s.iterations), ("warmup", toString s.warmup),
    ("seed", toString s.seed), ("tolerance", Decimal.singleText numberStyle s.tolerance)]
  "RunSettings \x7b " ++ ", ".intercalate (fields.map fun (key, text) => key ++ ": " ++ text) ++
    " \x7d"

end RunSettings

end RoutedExperts
