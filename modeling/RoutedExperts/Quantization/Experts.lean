import RoutedExperts.Quantization.Quantizer
import RoutedExperts.Quantization.ScaleLayout
import RoutedExperts.Quantization.Support
import RoutedExperts.Quantization.WeightLayout

/-!
# Packed experts

A stack of weight matrices, one per expert, in the packed form that grouped products read: words in
the layout of `WeightLayout`, scales in half precision in the order of `ScaleLayout`, and beside
them the reference weights that words and scales stand for.
-/

namespace RoutedExperts

/-- The packed weights of a stack of experts. -/
structure Experts where
  /-- Packed words, one row per band of sixteen matrix rows. -/
  packed : Tensor
  /-- Scales of each expert and group in the stored order. -/
  scales : Tensor
  /-- The weights that words and scales stand for. -/
  reference : Tensor
  type : WeightType
  groupSize : Int

namespace Experts

/-- The shape of the packed words. -/
def packedShape (experts rows columns : Nat) (type : WeightType) : List Nat :=
  [experts, rows / WeightLayout.tile, columns * WeightLayout.tile / type.packFactor]

/-- Quantizes and packs one expert. -/
def packOne (type : WeightType) (groupSize : Int) (rows columns : Nat) (weights : Array Float32) :
    Except Error (Array UInt32 × Quantized) := do
  let quantized ← Quantizer.quantize weights rows columns type groupSize
  return (← WeightLayout.pack quantized.values rows columns type, quantized)

/-- Quantizes and packs a stack of experts of shape `[experts, rows, columns]`. -/
def quantize (weights : Tensor) (type : WeightType) (groupSize : Int) : Except Error Experts :=
  match weights.shape with
  | [experts, rows, columns] => do
    if !Support.admits type groupSize false none then throw (.groupSize type groupSize)
    Support.checkShape columns rows groupSize
    let size := rows * columns
    if size = 0 then throw .emptyExpert
    let singles := weights.singles
    let packs ← (List.range experts).mapM fun e =>
      packOne type groupSize rows columns (singles.extract (e * size) ((e + 1) * size))
    let groups := match packs.getLast? with
      | some (_, quantized) => quantized.groups
      | none => 1
    let gather (part : Array UInt32 × Quantized → Array Float32) : Array Float32 :=
      packs.foldl (fun all p => all ++ part p) #[]
    let scales := Tensor.ofSingles .f32 [experts, groups, columns] (gather (·.2.scales))
    let stored ← ScaleLayout.permute scales rows columns groupSize
    return {
      packed := Tensor.ofWords (packedShape experts rows columns type)
        (packs.foldl (fun all p => all ++ p.1) #[])
      scales := Tensor.ofSingles .f16 stored.shape stored.singles
      reference := Tensor.ofSingles .f32 [experts, rows, columns] (gather (·.2.reference))
      type := type
      groupSize := groupSize }
  | shape => .error (.rank 3 shape)

end Experts

end RoutedExperts
