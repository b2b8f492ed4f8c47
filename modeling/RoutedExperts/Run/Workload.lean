import RoutedExperts.Reference.Dense
import RoutedExperts.Run.Trace
import RoutedExperts.Synthetic.Generator

/-!
# Workloads

A workload is made from the settings of a run: random operands from a seed, a pass over them that
can be repeated, and what the pass should give. `Workload.judge` accepts a result only if it is
within the tolerance; `Workload.run` makes, passes and judges. A pass does not depend on what
earlier passes left in the workspace, so one pass decides on a run.
-/

namespace RoutedExperts

/-- A workload ready to run. -/
structure Workload where
  settings : RunSettings
  block : Block
  /-- Multiplications of one pass, counted for every slot. -/
  macs : Nat
  /-- What was reported while the workload was made. -/
  made : List Event
  /-- What one pass reports. -/
  reported : List Event
  workspace : Workspace
  pass : Workspace → Except Error Tensor × Workspace
  expected : Unit → Except Error Tensor

/-- The outcome of a run. -/
structure Report where
  mode : Mode
  block : Block
  macs : Nat
  error : Float32

namespace Workload

/-- The number of multiplications, of which 64 bits are kept. -/
def count (factors : List Nat) : Nat := volume factors % twoTo 64

/-- Draws a tensor from the generator. -/
def draw (shape : List Nat) (scale : Float32) (g : Generator) : Tensor × Generator :=
  let (values, g) := g.symmetric scale (volume shape)
  (Tensor.ofSingles .f32 shape values, g)

/-- The routing of a run always weighs its slots to one. -/
def selection (s : RunSettings) : Selection := ⟨s.chosen, true⟩

/-- One grouped product with weighted slots. -/
def product (s : RunSettings) : Except Error Workload := do
  let type ← s.quant.validate none
  let g := Generator.ofSeed s.seed.toUInt64
  let (activations, g) := draw [s.tokens, s.rows] 1 g
  let (weights, g) := draw [s.experts, s.rows, s.columns] 0.1 g
  let (logits, _) := draw [s.tokens, s.experts] 2 g
  let experts ← Experts.quantize weights type s.groupSize
  let choice ← TopK.select logits (selection s)
  let block ← match s.block with
    | some size => Block.ofSize size
    | none => pure (Block.forBatch s.tokens s.chosen s.experts)
  let alignment ← Alignment.ofTensor choice.experts block.size s.experts
  let workspace := Workspace.forShape s.columns s.rows block.size
  let call : GroupedCall :=
    { shape :=
        { tokens := s.tokens, columns := s.columns, rows := s.rows, padded := alignment.padded
          experts := s.experts, chosen := s.chosen, block := block.size
          replicated := true, weighted := true }
      activations := activations
      packed := experts.packed
      sortedIds := alignment.idTensor
      weights := some choice.weights
      scales := experts.scales
      offsets := alignment.offsetTensor }
  return {
    settings := s
    block := block
    macs := count [s.tokens, s.chosen, s.rows, s.columns]
    made := [Trace.aligned block.size alignment.padded]
    reported := Trace.product call workspace
    workspace := workspace
    pass := call.products
    expected := fun _ =>
      Reference.dense activations experts.reference choice.experts (some choice.weights) }

/-- The settings of a run's layer. -/
def layerSettings (s : RunSettings) : Except Error LayerSettings := do
  let block ← match s.block with
    | some size => do pure (some (← Block.ofSize size))
    | none => pure none
  return { experts := s.experts, chosen := s.chosen, hidden := s.columns
           intermediate := s.intermediate, renormalize := true, quant := s.quant, block := block }

/-- The two projections of a gated network. -/
def network (s : RunSettings) : Except Error Workload := do
  let settings ← layerSettings s
  let g := Generator.ofSeed s.seed.toUInt64
  let (gateUp, g) := draw [s.experts, s.columns, 2 * s.intermediate] 0.1 g
  let (down, g) := draw [s.experts, s.intermediate, s.columns] 0.1 g
  let layer ← Layer.ofDense settings gateUp down
  let (hidden, g) := draw [s.tokens, s.columns] 1 g
  let (logits, _) := draw [s.tokens, s.experts] 2 g
  return {
    settings := s
    block := settings.blockFor s.tokens
    macs := count [s.tokens, s.chosen, 3, s.columns, s.intermediate]
    made := [Trace.layerMade layer]
    reported := Trace.pass layer hidden logits
    workspace := layer.workspace
    pass := fun workspace =>
      let (outcome, after) := { layer with workspace := workspace }.forward hidden logits
      (outcome, after.workspace)
    expected := fun _ => do
      let choice ← TopK.select logits (selection s)
      Reference.gated hidden layer.gateUp.reference layer.down.reference choice.experts
        choice.weights }

/-- The workload of settings. -/
def make (s : RunSettings) : Except Error Workload :=
  match s.mode with
  | .product => product s
  | .network => network s

/-- Whether a relative error is tolerated. -/
def tolerates (tolerance error : Float32) : Bool := !(tolerance < error)

/-- The largest relative error of a result, unless it exceeds the tolerance. -/
def judge (w : Workload) (result : Tensor) : Except RunError Float32 := do
  let expected ← (w.expected ()).mapError RunError.failed
  let error := Reference.maxRelativeError result.singles.toList expected.singles.toList
  if tolerates w.settings.tolerance error then return error
  else throw (.deviates error w.settings.tolerance)

/-- The report of a workload whose pass gave a result. -/
def report (w : Workload) (result : Tensor) : Except RunError Report := do
  return { mode := w.settings.mode, block := w.block, macs := w.macs, error := ← w.judge result }

/-- Runs a workload: what is reported on the way, and the outcome. -/
def run (s : RunSettings) : List Event × Except RunError Report :=
  match make s with
  | .error e => ([Trace.started s], .error (.failed e))
  | .ok w =>
    let begun := Trace.started s :: w.made
    match (w.pass w.workspace).1 with
    | .error e => (begun ++ w.reported, .error (.failed e))
    | .ok result =>
      (begun ++ (List.replicate (s.warmup + s.iterations) w.reported).flatten, w.report result)

end Workload

namespace Report

/-- Seconds of a number of nanoseconds. -/
def seconds (nanoseconds : Nat) : Float :=
  Double.ofDatum (.ofInt (nanoseconds / tenTo 9 : Nat)) +
    Double.ofDatum (.ofInt (nanoseconds % tenTo 9 : Nat)) / 1e9

/-- Billions of operations in a second, two for each multiplication; zero when no time passed. -/
def gigaflops (macs nanoseconds : Nat) : Float :=
  let time := seconds nanoseconds
  if time == 0 then 0 else 2 * Double.ofDatum (.ofInt macs) / time / 1e9

end Report

end RoutedExperts
