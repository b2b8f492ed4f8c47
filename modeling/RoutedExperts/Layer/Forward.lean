import RoutedExperts.Layer.Activation
import RoutedExperts.Product.Grouped
import RoutedExperts.Routing.Alignment
import RoutedExperts.Routing.TopK

/-!
# Routed forward passes

`Forward.project` runs one routed projection of every token. `Forward.gated` runs the two
projections of a gated network: gate and up columns for every slot, the gated activation, and the
weighted down projection summed over the slots of each token. Both work in a workspace that they
hand on.
-/

namespace RoutedExperts

/-- The routing that the projections of one pass share. -/
structure Routing where
  weights : Tensor
  alignment : Alignment
  block : Block

/-- Packed weights and their scales as a pass reads them. -/
structure PackedWeights where
  packed : Tensor
  scales : Tensor

/-- The tokens of a pass and how they are routed. -/
structure Batch where
  hidden : Tensor
  gating : Tensor
  selection : Selection
  /-- A fixed block; chosen for the batch when there is none. -/
  block : Option Block := none

namespace Forward

/-- Routes a batch by its gating logits. -/
def route (batch : Batch) (tokens experts : Nat) : Except Error Routing := do
  if batch.gating.shape ≠ [tokens, experts] then
    throw (.gatingShape batch.gating.shape tokens experts)
  let choice ← TopK.select batch.gating batch.selection
  let block := batch.block.getD (Block.forBatch tokens batch.selection.count experts)
  let alignment ← Alignment.ofTensor choice.experts block.size experts
  return { weights := choice.weights, alignment := alignment, block := block }

/-- Tokens and features of the hidden states. -/
def hiddenSize (t : Tensor) : Except Error (Nat × Nat) :=
  match t.shape with
  | [tokens, features] => .ok (tokens, features)
  | shape => .error (.hiddenRank shape)

/-- Experts and weight rows of packed words. -/
def packedSize (name : String) (t : Tensor) : Except Error (Nat × Nat) :=
  match t.shape with
  | [experts, tiles, _] => .ok (experts, tiles * WeightLayout.tile)
  | shape => .error (.expertsRank name shape)

/-- Weight columns of scales. -/
def scaleColumns (name : String) (t : Tensor) : Except Error Nat :=
  match t.shape with
  | [_, _, columns] => .ok columns
  | shape => .error (.expertScalesRank name shape)

/-- The sizes of a routed projection. -/
structure Sizes where
  tokens : Nat
  features : Nat
  experts : Nat
  columns : Nat

/-- The sizes of a single projection. -/
def projectSizes (batch : Batch) (w : PackedWeights) : Except Error Sizes := do
  let (tokens, features) ← hiddenSize batch.hidden
  let (experts, _) ← packedSize "w" w.packed
  let columns ← scaleColumns "scales" w.scales
  return { tokens := tokens, features := features, experts := experts, columns := columns }

/-- The sizes of a gated network; the columns are those of gate and up together, twice the
intermediate features. -/
def gatedSizes (batch : Batch) (first second : PackedWeights) : Except Error (Sizes × Nat) := do
  let (tokens, features) ← hiddenSize batch.hidden
  let (experts, rows) ← packedSize "w1" first.packed
  let (secondExperts, intermediate) ← packedSize "w2" second.packed
  let columns ← scaleColumns "w1_scales" first.scales
  if rows ≠ features then throw (.projectionInput rows features)
  if secondExperts ≠ experts then throw (.projectionExperts experts secondExperts)
  if columns ≠ 2 * intermediate then throw (.projectionOutput columns intermediate)
  return ({ tokens := tokens, features := features, experts := experts, columns := columns },
    intermediate)

/-- The call that multiplies a batch's hidden states, one row per token. -/
def tokenCall (s : Sizes) (batch : Batch) (w : PackedWeights) (r : Routing) (weighted : Bool) :
    GroupedCall where
  shape :=
    { tokens := s.tokens, columns := s.columns, rows := s.features, padded := r.alignment.padded
      experts := s.experts, chosen := batch.selection.count, block := r.block.size
      replicated := true, weighted := weighted }
  activations := batch.hidden
  packed := w.packed
  sortedIds := r.alignment.idTensor
  weights := if weighted then some r.weights else none
  scales := w.scales
  offsets := r.alignment.offsetTensor

/-- The call that multiplies activated slots, one row per slot. -/
def slotCall (s : Sizes) (batch : Batch) (intermediate : Nat) (activated : Tensor)
    (w : PackedWeights) (r : Routing) : GroupedCall where
  shape :=
    { tokens := s.tokens, columns := s.features, rows := intermediate
      padded := r.alignment.padded, experts := s.experts, chosen := batch.selection.count
      block := r.block.size, replicated := false, weighted := true }
  activations := activated
  packed := w.packed
  sortedIds := r.alignment.idTensor
  weights := some r.weights
  scales := w.scales
  offsets := r.alignment.offsetTensor

/-- One routed projection, summed over the slots of each token by their weights. -/
def project (batch : Batch) (w : PackedWeights) (workspace : Workspace) :
    Except Error Tensor × Workspace :=
  match projectSizes batch w with
  | .error e => (.error e, workspace)
  | .ok s =>
    if s.tokens = 0 then (.ok (Tensor.zeros batch.hidden.element [0, s.columns]), workspace)
    else match route batch s.tokens s.experts with
      | .error e => (.error e, workspace)
      | .ok r => (tokenCall s batch w r true).products workspace

/-- Activates the slots of the first projection. -/
def activate (s : Sizes) (batch : Batch) (gateUp : Tensor) : Except Error Tensor :=
  Activation.gate (gateUp.reshape [s.tokens * batch.selection.count, s.columns])

/-- The two projections of a gated network. -/
def gated (batch : Batch) (first second : PackedWeights) (workspace : Workspace) :
    Except Error Tensor × Workspace :=
  match gatedSizes batch first second with
  | .error e => (.error e, workspace)
  | .ok (s, intermediate) =>
    if s.tokens = 0 then (.ok (Tensor.zeros batch.hidden.element [0, s.features]), workspace)
    else match route batch s.tokens s.experts with
      | .error e => (.error e, workspace)
      | .ok r =>
        match (tokenCall s batch first r false).slotProducts workspace with
        | (.error e, after) => (.error e, after)
        | (.ok gateUp, after) =>
          match activate s batch gateUp with
          | .error e => (.error e, after)
          | .ok activated => (slotCall s batch intermediate activated second r).products after

end Forward

end RoutedExperts
