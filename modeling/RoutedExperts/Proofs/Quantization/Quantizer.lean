import RoutedExperts.Proofs.Checks
import RoutedExperts.Proofs.Numeric.Scalar
import RoutedExperts.Quantization.Quantizer

/-!
# What a quantized matrix holds

Every stored value fits its weight type (`Quantizer.toNat_le_mask_of_mem_values`), whatever the
weight was, and every scale is a positive half-precision number (`Quantizer.pos_storableScale`,
`Quantizer.toSingle_ofSingle_storableScale`). So neither packing the values nor storing the scales
in half precision loses anything.
-/

namespace RoutedExperts

namespace WeightType

/-- The bias is one of the values of a type. -/
theorem bias_le_mask (type : WeightType) : type.bias ≤ type.mask := by
  cases type <;> decide

/-- The mask of a type has its bits. -/
theorem mask_lt (type : WeightType) : type.mask < twoTo type.bits := by
  cases type <;> decide

theorem mask_lt_word (type : WeightType) : type.mask < 4294967296 := by
  cases type <;> decide

end WeightType

namespace Level

/-- A level that the weight type has. -/
def Fits (type : WeightType) : Level → Prop
  | undefined => True
  | steps negative count => count ≤ limit type negative

/-- The level nearest to a quotient is one of the type. -/
theorem fits_nearest (type : WeightType) (quotient : Float32) :
    (nearest type quotient).Fits type := by
  unfold nearest
  split
  · trivial
  · exact Nat.le_refl _
  · exact Nat.min_le_right ..

/-- A level that the weight type has is stored with the bias added. -/
theorem Fits.toNat_store {type : WeightType} {level : Level} (h : level.Fits type) :
    ((level.store type).toNat : Int) = level.toInt + type.bias ∧
      (level.store type).toNat ≤ type.mask := by
  have hbias := type.bias_le_mask
  have hword := type.mask_lt_word
  have hrange : 0 ≤ level.toInt + type.bias ∧ level.toInt + type.bias ≤ type.mask := by
    cases level with
    | undefined =>
      rw [toInt]
      omega
    | steps negative count =>
      cases negative with
      | false =>
        have hcount : count ≤ type.mask - type.bias := h
        simp only [toInt, Bool.false_eq_true, ite_false]
        omega
      | true =>
        have hcount : count ≤ type.bias := h
        simp only [toInt, ite_true]
        omega
  have hstored : (level.toInt + type.bias).toNat < UInt32.size := by
    rw [UInt32.size]
    omega
  rw [store, Nat.toUInt32_eq, UInt32.toNat_ofNat_of_lt' hstored]
  omega

end Level

namespace Quantizer

/-- A scale is a half-precision number. -/
theorem toSingle_ofSingle_storableScale (scale : Float32) :
    (Half.ofSingle (storableScale scale)).toSingle = storableScale scale := by
  simp only [storableScale]
  by_cases hpos : 0 < (Half.ofSingle scale).toSingle
  · have hnumber : (Half.ofSingle scale).datum ≠ .nan := by
      intro hnan
      have hundefined : ¬ 0 < Single.ofDatum .nan := by decide
      rw [Half.toSingle, hnan] at hpos
      exact hundefined hpos
    rw [if_pos hpos, Half.ofSingle_toSingle hnumber]
  · have hone : (Half.ofSingle 1).toSingle = 1 := by decide +kernel
    rw [if_neg hpos, hone]

/-- A scale is a positive number. -/
theorem pos_storableScale (scale : Float32) : 0 < storableScale scale := by
  simp only [storableScale]
  split
  · assumption
  · decide +kernel

/-- Quantizing succeeds exactly for a type without a zero point on a matrix of its shape in whole
groups, and quantizes these groups. -/
theorem quantize_eq_ok_iff (weights : Array Float32) (rows columns : Nat) (type : WeightType)
    (groupSize : Int) (q : Quantized) :
    quantize weights rows columns type groupSize = .ok q ↔
      type.hasZeroPoint = false ∧ weights.size = rows * columns ∧
        groupRows rows groupSize ≤ rows ∧ 0 < groupRows rows groupSize ∧
          rows % groupRows rows groupSize = 0 ∧
            quantizeGroups type weights rows columns (groupRows rows groupSize) = q := by
  simp only [quantize, error_bind, pure_eq_ok, throw_eq_error, refuse_eq_ok_iff, ne_eq, not_not,
    Except.ok.injEq, Bool.not_eq_true, Nat.not_lt, Nat.pos_iff_ne_zero]

section

variable (type : WeightType) (weights : Array Float32) (rows columns length : Nat)

/-- There is a value for each weight. -/
theorem size_values_quantizeGroups :
    (quantizeGroups type weights rows columns length).values.size = rows * columns := by
  simp only [quantizeGroups, Array.size_map, Array.size_ofFn]

/-- There is a scale for each group of each column. -/
theorem size_scales_quantizeGroups :
    (quantizeGroups type weights rows columns length).scales.size = rows / length * columns := by
  simp only [quantizeGroups, Array.size_ofFn]

/-- Every stored value fits its weight type. -/
theorem toNat_le_mask_of_mem_values {v : UInt32}
    (hv : v ∈ (quantizeGroups type weights rows columns length).values) :
    v.toNat ≤ type.mask := by
  simp only [quantizeGroups, Array.mem_map, Array.mem_ofFn] at hv
  obtain ⟨_, ⟨i, rfl⟩, rfl⟩ := hv
  exact (Level.fits_nearest type _).toNat_store.2

/-- Every scale is some scale made storable. -/
theorem exists_storableScale_of_mem_scales {s : Float32}
    (hs : s ∈ (quantizeGroups type weights rows columns length).scales) :
    ∃ scale, storableScale scale = s := by
  simp only [quantizeGroups, Array.mem_ofFn] at hs
  obtain ⟨i, rfl⟩ := hs
  exact ⟨_, rfl⟩

/-- Every value has the bits of the type. -/
theorem toNat_values_quantizeGroups_lt {i : Nat} (hi : i < rows * columns) :
    ((quantizeGroups type weights rows columns length).values.getD i 0).toNat <
      twoTo type.bits := by
  have hvalue : i < (quantizeGroups type weights rows columns length).values.size := by
    rwa [size_values_quantizeGroups]
  rw [← Array.getElem_eq_getD (h := hvalue)]
  exact Nat.lt_of_le_of_lt
    (toNat_le_mask_of_mem_values type weights rows columns length (Array.getElem_mem hvalue))
    type.mask_lt

/-- Storing a scale in half precision loses nothing. -/
theorem toSingle_ofSingle_scales_quantizeGroups {i : Nat} (hi : i < rows / length * columns) :
    (Half.ofSingle ((quantizeGroups type weights rows columns length).scales.getD i 0)).toSingle =
      (quantizeGroups type weights rows columns length).scales.getD i 0 := by
  have hscale : i < (quantizeGroups type weights rows columns length).scales.size := by
    rwa [size_scales_quantizeGroups]
  rw [← Array.getElem_eq_getD (h := hscale)]
  obtain ⟨scale, hs⟩ := exists_storableScale_of_mem_scales type weights rows columns length
    (Array.getElem_mem hscale)
  rw [← hs, toSingle_ofSingle_storableScale]

end

end Quantizer

end RoutedExperts
