import RoutedExperts.Error
import RoutedExperts.Numeric.Exponential

/-!
# The gated activation

The first half of the columns goes through the sigmoid-weighted unit `v / (1 + exp (-v))` and gates
the second half.
-/

namespace RoutedExperts

namespace Activation

/-- The sigmoid-weighted unit. -/
def silu (v : Float32) : Float32 := v / (1 + Single.exp (-v))

/-- The gated product at column `n` of a row of `2 * half` values. -/
def gateAt (half : Nat) (values : Array Float32) (row n : Nat) : Float32 :=
  silu (values.getD (row * (2 * half) + n) 0) * values.getD (row * (2 * half) + half + n) 0

/-- Gates a tensor of shape `[rows, columns]`; the result has half the columns. -/
def gate (t : Tensor) : Except Error Tensor :=
  match t.shape with
  | [rows, columns] =>
    if columns % 2 ≠ 0 then .error (.oddColumns columns)
    else
      let half := columns / 2
      let values := t.singles
      .ok (Tensor.ofFn t.element [rows, half] fun i =>
        t.element.ofSingle (gateAt half values (i / half) (i % half)))
  | shape => .error (.rank 2 shape)

end Activation

end RoutedExperts
