import RoutedExperts.Error

/-!
# The stored order of scales

Scales are stored in a fixed permutation of every run of 64 columns, or of every run of 32 when each
column has a single scale. `ScaleOrder.source` and `ScaleOrder.target` are inverse to each other on
a run, and `permute` and `unpermute` apply them to a whole tensor, run by run.
-/

namespace RoutedExperts

/-- The two orders of stored scales. -/
inductive ScaleOrder where
  | grouped | perColumn
  deriving DecidableEq, Repr

namespace ScaleOrder

/-- The order for a matrix with this many rows: a group that holds all rows is no group. -/
def ofGroupSize (rows : Nat) (groupSize : Int) : ScaleOrder :=
  if 0 < groupSize ∧ groupSize < rows then grouped else perColumn

/-- The length of a run. -/
def run : ScaleOrder → Nat
  | grouped => 64
  | perColumn => 32

/-- The place in a run of the scale that is stored at place `j`. -/
def source : ScaleOrder → Nat → Nat
  | grouped, j => j % 8 * 8 + j / 8
  | perColumn, j => j % 8 / 2 * 8 + j / 8 * 2 + j % 2

/-- The place in a run at which the scale of place `p` is stored. -/
def target : ScaleOrder → Nat → Nat
  | grouped, p => p % 8 * 8 + p / 8
  | perColumn, p => p / 2 % 4 * 8 + p / 8 * 2 + p % 2

end ScaleOrder

namespace ScaleLayout

/-- A map of places in a run, applied to positions of a tensor. -/
def inRun (run : Nat) (place : Nat → Nat) (i : Nat) : Nat := i / run * run + place (i % run)

/-- Moves the scales of every run, or refuses a tensor that does not divide into runs. -/
def move (scales : Tensor) (columns run : Nat) (place : Nat → Nat) : Except Error Tensor :=
  if scales.data.size % run ≠ 0 ∨ columns % run ≠ 0 then .error (.scaleChunks scales.shape run)
  else .ok (scales.reorder (inRun run place))

/-- Scales in the stored order. -/
def permute (scales : Tensor) (rows columns : Nat) (groupSize : Int) : Except Error Tensor :=
  let order := ScaleOrder.ofGroupSize rows groupSize
  move scales columns order.run order.source

/-- Stored scales in the order of the columns. -/
def unpermute (scales : Tensor) (rows columns : Nat) (groupSize : Int) : Except Error Tensor :=
  let order := ScaleOrder.ofGroupSize rows groupSize
  move scales columns order.run order.target

end ScaleLayout

end RoutedExperts
