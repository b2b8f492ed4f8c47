import RoutedExperts.Product.Engine
import RoutedExperts.Quantization.ScaleLayout

/-!
# Grouped products

The entry points of grouped products. A call is checked in full before the workspace is touched, so
a call that is refused leaves the workspace as it was. `GroupedCall.slotProducts` returns one row
per slot, `GroupedCall.products` the sum of each token's rows; both round once, to the element type
of the activations.
-/

namespace RoutedExperts

/-- A grouped product and its tensors. -/
structure GroupedCall where
  shape : ProductShape
  activations : Tensor
  packed : Tensor
  sortedIds : Tensor
  weights : Option Tensor
  scales : Tensor
  offsets : Tensor

namespace GroupedCall

/-- Refuses activations of another type or shape. -/
def checkActivations (c : GroupedCall) : Except Error Unit := do
  let s := c.shape
  if !c.activations.element.isActivation then throw (.activationElement c.activations.element)
  if c.activations.shape ≠ [s.activationRows, s.rows] then
    throw (.activationShape c.activations.shape s.activationRows s.rows s.replicated)

/-- The weight type that the shape of the packed words implies. -/
def inferType (c : GroupedCall) : Except Error WeightType := do
  let s := c.shape
  if c.packed.element ≠ .u32 then throw (.packedElement c.packed.element)
  match c.packed.shape with
  | [experts, tiles, words] =>
    if experts ≠ s.experts then throw (.packedExperts experts s.experts)
    if tiles * WeightLayout.tile ≠ s.rows then throw (.packedTiles tiles s.rows)
    let band := s.columns * WeightLayout.tile
    if words = 0 ∨ band % words ≠ 0 then throw (.packedRow words s.columns)
    let factor := band / words
    match WeightType.symmetric? (32 / max factor 1) with
    | some type =>
      if type.packFactor = factor then return type else throw (.packFactor factor words)
    | none => throw (.packFactor factor words)
  | shape => throw (.packedRank shape)

/-- The scale groups of a column and the group size they imply. -/
def readGroups (c : GroupedCall) (type : WeightType) : Except Error (Nat × Int) := do
  let s := c.shape
  match c.scales.shape with
  | [experts, groups, columns] =>
    if experts ≠ s.experts ∨ columns ≠ s.columns then
      throw (.scalesShape c.scales.shape s.experts s.columns)
    if !c.scales.element.isFloat then throw (.scalesElement c.scales.element)
    let groupSize ← Support.groupSizeOfCount s.rows groups
    if !Support.admits type groupSize false none then throw (.productGroupSize groupSize type)
    Support.checkShape s.columns s.rows groupSize
    return (groups, groupSize)
  | shape => throw (.scalesRank shape)

/-- The weight of each slot, if the call is weighted. -/
def readWeights (c : GroupedCall) : Except Error (Option (Array Float32)) := do
  let s := c.shape
  if s.weighted then
    match c.weights with
    | none => throw .weightsMissing
    | some weights =>
      if weights.shape ≠ [s.tokens, s.chosen] then
        throw (.weightsShape weights.shape s.tokens s.chosen)
      return some weights.singles
  else return none

/-- Checks a call and reads its operands. -/
def prepare (c : GroupedCall) (workspace : Workspace) : Except Error Operands := do
  let s := c.shape
  s.check
  c.checkActivations
  let type ← c.inferType
  let (groups, groupSize) ← c.readGroups type
  let plan ← Plan.load c.sortedIds c.offsets s.padded s.experts s.block s.slots
  let weights ← c.readWeights
  if !workspace.fits s.columns s.rows s.block then
    throw (.workspaceTooSmall workspace.size s.columns s.rows s.block
      (Workspace.required s.columns s.rows s.block))
  let scales ← ScaleLayout.unpermute c.scales s.rows s.columns groupSize
  return {
    activations := c.activations.singles
    words := c.packed.words
    scales := scales.singles
    weights := weights
    plan := plan
    type := type
    groups := groups }

/-- Runs a call; the result has one row per slot. -/
def execute (c : GroupedCall) (workspace : Workspace) :
    Except Error (Array Float32) × Workspace :=
  match c.prepare workspace with
  | .error e => (.error e, workspace)
  | .ok operands =>
    let state := Engine.run c.shape operands workspace.buffer
    (.ok state.slots, ⟨state.scratch⟩)

/-- The product of every slot, of shape `[tokens, chosen, columns]`. -/
def slotProducts (c : GroupedCall) (workspace : Workspace) : Except Error Tensor × Workspace :=
  let (outcome, after) := c.execute workspace
  let s := c.shape
  (outcome.map (Tensor.ofSingles c.activations.element [s.tokens, s.chosen, s.columns]), after)

/-- The product of every token, of shape `[tokens, columns]`. -/
def products (c : GroupedCall) (workspace : Workspace) : Except Error Tensor × Workspace :=
  let (outcome, after) := c.execute workspace
  let s := c.shape
  (outcome.map fun slots =>
    Tensor.ofSingles c.activations.element [s.tokens, s.columns] (Engine.reduce s slots), after)

end GroupedCall

end RoutedExperts
