import RoutedExperts.Product.Shape
import RoutedExperts.Product.Workspace
import RoutedExperts.Quantization.Quantizer
import RoutedExperts.Quantization.WeightLayout
import RoutedExperts.Routing.Plan

/-!
# The blocked engine

Experts are visited in order. The weights of an expert with at least one slot are written to the
workspace once; then the expert's places are worked on a block at a time: the activations of the
slots in the block are gathered, multiplied into the weights, and scattered to the rows of their
slots. Products are summed from the first weight row to the last, one rounding per operation.
-/

namespace RoutedExperts

/-- The operands of a grouped product, checked against its shape. -/
structure Operands where
  /-- Activations in row-major order. -/
  activations : Array Float32
  /-- Packed words of all experts. -/
  words : Array UInt32
  /-- Scales of all experts and groups in column order. -/
  scales : Array Float32
  /-- The weight of each slot, if slots are weighted. -/
  weights : Option (Array Float32)
  plan : Plan
  type : WeightType
  /-- Scale groups of a column. -/
  groups : Nat

namespace Engine

/-- The scratch buffer and the rows of slots written so far. -/
structure State where
  scratch : Array Float32
  slots : Array Float32

/-- Overwrites `count` elements from `start` on. -/
def write (buffer : Array Float32) (start count : Nat) (value : Nat → Float32) : Array Float32 :=
  Nat.fold count (fun i _ b => b.setIfInBounds (start + i) (value i)) buffer

/-- The weight of an expert that the engine multiplies by, at a row-major index. -/
def tileEntry (s : ProductShape) (o : Operands) (expert : Nat) (values : Array UInt32) (i : Nat) :
    Float32 :=
  let group := i / s.columns / (s.rows / o.groups)
  dequantize o.type (values.getD i 0)
    (o.scales.getD ((expert * o.groups + group) * s.columns + i % s.columns) 0)

/-- The stored values of one expert in row-major order. -/
def expertValues (s : ProductShape) (o : Operands) (expert : Nat) : Array UInt32 :=
  let size := WeightLayout.packedSize s.rows s.columns o.type
  WeightLayout.unpackWords o.type s.rows s.columns
    (o.words.extract (expert * size) ((expert + 1) * size))

/-- Writes an expert's weights to the workspace. -/
def stageTile (s : ProductShape) (o : Operands) (expert : Nat) (scratch : Array Float32) :
    Array Float32 :=
  write scratch 0 (s.rows * s.columns) (tileEntry s o expert (expertValues s o expert))

/-- Gathers the activations of the given slots. -/
def gather (s : ProductShape) (o : Operands) (ids : Array Nat) (scratch : Array Float32) :
    Array Float32 :=
  write scratch s.rowStart (ids.size * s.rows) fun i =>
    o.activations.getD (s.activationRow (ids.getD (i / s.rows) 0) * s.rows + i % s.rows) 0

/-- The product of a gathered row and a column of the weights. -/
def dot (s : ProductShape) (scratch : Array Float32) (row column : Nat) : Float32 :=
  let start := s.rowStart + row * s.rows
  let columns := s.columns
  Nat.fold s.rows (fun k _ sum =>
    sum + scratch.getD (start + k) 0 * scratch.getD (k * columns + column) 0) 0

/-- Multiplies the gathered rows into the weights. -/
def multiply (s : ProductShape) (count : Nat) (scratch : Array Float32) : Array Float32 :=
  write scratch s.productStart (count * s.columns) fun i =>
    dot s scratch (i / s.columns) (i % s.columns)

/-- The factor of a slot's product. -/
def slotWeight (o : Operands) (slot : Nat) : Float32 :=
  match o.weights with
  | some weights => weights.getD slot 0
  | none => 1

/-- Writes the products of the given slots to their rows. -/
def scatter (s : ProductShape) (o : Operands) (ids : Array Nat) (scratch slots : Array Float32) :
    Array Float32 :=
  ids.zipIdx.foldl (fun out (slot, row) =>
    write out (slot * s.columns) s.columns fun n =>
      scratch.getD (s.productStart + row * s.columns + n) 0 * slotWeight o slot) slots

/-- Works on one block of places. -/
def runBlock (s : ProductShape) (o : Operands) (state : State) (places : Array Nat) : State :=
  let ids := places.filter (· < s.slots)
  let scratch := multiply s ids.size (gather s o ids state.scratch)
  { scratch := scratch, slots := scatter s o ids scratch state.slots }

/-- The blocks of an expert's places. -/
def blocks (block : Nat) (places : Array Nat) : List (Array Nat) :=
  (List.range (Block.divUp places.size block)).map fun b =>
    places.extract (b * block) ((b + 1) * block)

/-- Works on the places of one expert. -/
def runExpert (s : ProductShape) (o : Operands) (state : State) (expert : Nat) : State :=
  let places := o.plan.segment expert
  if places.any (· < s.slots) then
    (blocks s.block places).foldl (runBlock s o)
      { state with scratch := stageTile s o expert state.scratch }
  else state

/-- Runs a grouped product; the result has one row per slot, and zeros in the row of a slot that no
expert works on. -/
def run (s : ProductShape) (o : Operands) (scratch : Array Float32) : State :=
  (List.range s.experts).foldl (runExpert s o)
    { scratch := scratch, slots := Array.replicate (s.slots * s.columns) 0 }

/-- The sums of each token's slots, from the first slot to the last. -/
def reduce (s : ProductShape) (slots : Array Float32) : Array Float32 :=
  Array.ofFn fun i : Fin (s.tokens * s.columns) =>
    Nat.fold s.chosen (fun j _ sum =>
      sum + slots.getD ((i / s.columns * s.chosen + j) * s.columns + i % s.columns) 0) 0

end Engine

end RoutedExperts
