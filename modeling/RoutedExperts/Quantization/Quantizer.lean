import RoutedExperts.Error

/-!
# Symmetric quantization

Every group of rows of a column is written in whole steps of one scale. The scale is the larger of
the two that bring the extremes of the group to the ends of the step range, in half precision; a
weight becomes the nearest number of steps that the weight type has. `Level` keeps the sign of a
zero and the absence of a number, so that the reference weight is the exact product of a level and
its scale.
-/

namespace RoutedExperts

/-- A signed number of steps; a NaN has none. -/
inductive Level where
  | undefined
  | steps (negative : Bool) (count : Nat)
  deriving DecidableEq, Repr, Inhabited

namespace Level

/-- The largest number of steps on one side of zero. -/
def limit (type : WeightType) (negative : Bool) : Nat :=
  if negative then type.bias else type.mask - type.bias

/-- The level nearest to a quotient; a tie goes to the even one, and what exceeds the range of the
weight type to its end. -/
def nearest (type : WeightType) (quotient : Float32) : Level :=
  match Single.datum quotient with
  | .nan => undefined
  | .infinite negative => steps negative (limit type negative)
  | .finite negative mantissa exponent =>
    let count := if 0 ≤ exponent then mantissa <<< exponent.toNat
      else divNearest mantissa (1 <<< (-exponent).toNat)
    steps negative (min count (limit type negative))

/-- A level as a floating-point number. -/
def toSingle : Level → Float32
  | undefined => Single.ofDatum .nan
  | steps negative count => Single.ofDatum (.finite negative count 0)

/-- A level as an integer, zero when there is no number. -/
def toInt : Level → Int
  | undefined => 0
  | steps negative count => if negative then -(count : Int) else count

/-- The stored form of a level. -/
def store (type : WeightType) (level : Level) : UInt32 := (level.toInt + type.bias).toNat.toUInt32

end Level

/-- The weight that a stored value and a scale stand for. -/
def dequantize (type : WeightType) (stored : UInt32) (scale : Float32) : Float32 :=
  Single.ofInt (stored.toNat - type.bias) * scale

/-- A quantized matrix: stored values and reference weights in row-major order, and the scales of
each group. -/
structure Quantized where
  values : Array UInt32
  scales : Array Float32
  reference : Array Float32
  groups : Nat

namespace Quantizer

/-- The least and the largest of `count` weights, where a NaN counts for neither. -/
def extremes (weight : Nat → Float32) (count : Nat) : Float32 × Float32 :=
  Nat.fold count (fun i _ (low, high) =>
    (Single.lesser low (weight i), Single.greater high (weight i)))
    (Single.largest, -Single.largest)

/-- A scale in half precision, or one in place of a scale that is not positive. -/
def storableScale (scale : Float32) : Float32 :=
  let stored := (Half.ofSingle scale).toSingle
  if 0 < stored then stored else 1

/-- The scale of a group of weights. -/
def groupScale (type : WeightType) (weight : Nat → Float32) (count : Nat) : Float32 :=
  let (low, high) := extremes weight count
  storableScale <| Single.greater (high.abs / Single.ofInt type.highest)
    (low.abs / Single.ofInt (-type.lowest))

/-- The rows of one group; a group size that is not positive makes the whole column one group. -/
def groupRows (rows : Nat) (groupSize : Int) : Nat :=
  if groupSize ≤ 0 then rows else groupSize.toNat

/-- The quantized form of a matrix whose groups have `length` rows. -/
def quantizeGroups (type : WeightType) (weights : Array Float32) (rows columns length : Nat) :
    Quantized :=
  let groups := rows / length
  let scales := Array.ofFn fun i : Fin (groups * columns) =>
    groupScale type (fun r => weights.getD ((i / columns * length + r) * columns + i % columns) 0)
      length
  let scaleAt (i : Nat) : Float32 := scales.getD (i / columns / length * columns + i % columns) 1
  let levels := Array.ofFn fun i : Fin (rows * columns) =>
    Level.nearest type (weights.getD i 0 / scaleAt i)
  { values := levels.map (Level.store type)
    scales := scales
    reference := Array.ofFn fun i : Fin (rows * columns) =>
      (levels.getD i .undefined).toSingle * scaleAt i
    groups := groups }

/-- Quantizes a row-major matrix. -/
def quantize (weights : Array Float32) (rows columns : Nat) (type : WeightType) (groupSize : Int) :
    Except Error Quantized := do
  if type.hasZeroPoint then throw (.zeroPoint type)
  if weights.size ≠ rows * columns then throw (.weightCount rows columns weights.size)
  let length := groupRows rows groupSize
  if rows < length then throw (.groupLength groupSize rows)
  if length = 0 then throw .emptyGroup
  if rows % length ≠ 0 then throw (.groupLength groupSize rows)
  return quantizeGroups type weights rows columns length

end Quantizer

end RoutedExperts
