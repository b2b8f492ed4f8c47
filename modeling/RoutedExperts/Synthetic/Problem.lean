import RoutedExperts.Product.Grouped
import RoutedExperts.Quantization.Experts
import RoutedExperts.Reference.Dense
import RoutedExperts.Routing.Alignment
import RoutedExperts.Synthetic.Generator

/-!
# Synthetic problems

A routed product made from a seed: activations, packed experts, distinct experts for every token
and positive weights that add up to one.
-/

namespace RoutedExperts

/-- The sizes and the seed of a synthetic problem. -/
structure ProblemSpec where
  tokens : Nat := 8
  columns : Nat := 64
  rows : Nat := 128
  experts : Nat := 4
  chosen : Nat := 2
  block : Nat := 16
  type : WeightType := .uint4b8
  groupSize : Int := 64
  seed : UInt64 := 0
  deriving DecidableEq, Repr

/-- A routed product with all its operands. -/
structure Problem where
  spec : ProblemSpec
  activations : Tensor
  experts : Experts
  ids : Tensor
  weights : Tensor
  alignment : Alignment

namespace Problem

/-- Draws the experts and weights of one token: neighbouring experts from a random one on. -/
def drawToken (experts chosen : Nat) (g : Generator) : (List Nat × List Float32) × Generator :=
  let (start, g) := g.below experts
  let (raw, g) := Generator.many (Generator.uniform 0.5 2.5) chosen g
  let total := raw.foldl (· + ·) 0
  (((List.range chosen).map fun j => (start + j) % experts, (raw.map (· / total)).toList), g)

/-- The problem of a specification. -/
def generate (spec : ProblemSpec) : Except Error Problem := do
  if spec.chosen = 0 ∨ spec.experts < spec.chosen then
    throw (.problemChosen spec.chosen spec.experts)
  let filled (seed : UInt64) (scale : Float32) (shape : List Nat) : Tensor :=
    Tensor.ofSingles .f32 shape (Generator.seeded seed (volume shape) scale)
  let activations := filled spec.seed 1 [spec.tokens, spec.rows]
  let weights := filled (spec.seed ^^^ 0xA5A5) 0.25 [spec.experts, spec.rows, spec.columns]
  let experts ← Experts.quantize weights spec.type spec.groupSize
  let (draws, _) := Generator.many (drawToken spec.experts spec.chosen) spec.tokens
    (Generator.ofSeed (spec.seed ^^^ 0x5A5A))
  let shape := [spec.tokens, spec.chosen]
  let ids := Tensor.ofWords shape (draws.flatMap fun d => (d.1.map (·.toUInt32)).toArray)
  let alignment ← Alignment.ofTensor ids spec.block spec.experts
  return {
    spec := spec
    activations := activations
    experts := experts
    ids := ids
    weights := Tensor.ofSingles .f32 shape (draws.flatMap fun d => d.2.toArray)
    alignment := alignment }

/-- A workspace that fits the problem. -/
def workspace (p : Problem) : Workspace :=
  Workspace.forShape p.spec.columns p.spec.rows p.spec.block

/-- The grouped product of the problem. -/
def call (p : Problem) (weighted : Bool) : GroupedCall where
  shape :=
    { tokens := p.spec.tokens, columns := p.spec.columns, rows := p.spec.rows
      padded := p.alignment.padded, experts := p.spec.experts, chosen := p.spec.chosen
      block := p.spec.block, replicated := true, weighted := weighted }
  activations := p.activations
  packed := p.experts.packed
  sortedIds := p.alignment.idTensor
  weights := some p.weights
  scales := p.experts.scales
  offsets := p.alignment.offsetTensor

/-- The dense result of the problem. -/
def reference (p : Problem) (weighted : Bool) : Except Error (Array Float32) := do
  let out ← Reference.dense p.activations p.experts.reference p.ids
    (if weighted then some p.weights else none)
  return out.singles

/-- The relative error that still counts as agreement. -/
def tolerance : Float32 := 1e-3

/-- Whether a result agrees with what is expected. -/
def isClose (actual expected : Array Float32) : Bool :=
  Reference.maxRelativeError actual.toList expected.toList < tolerance

end Problem

end RoutedExperts
