import Mathlib
import RoutedExperts.Proofs.Numeric.SpecialValues

/-!
# Distances

The distance of two numbers, and the quotient by a scale that is at least one. Dropping a sign is
exact (`Single.unpack_abs`), so which distances and quotients are no numbers is known from the kinds
of their operands.
-/

namespace RoutedExperts

namespace Single

open Float.Model (UnpackedFloat)
open Float.Model.UnpackedFloat
open Float.Model.Format (binary32)

variable {x y : Float32}

theorem isNaN_eq_unpack (x : Float32) : x.isNaN = x.toModel.unpack.isNaN := rfl

theorem isFinite_eq_unpack (x : Float32) : x.isFinite = x.toModel.unpack.isFinite := rfl

/-! ### Magnitudes -/

/-- A code without its sign stands for the magnitude. -/
theorem unpack_positive (b : BitVec binary32.numBits) :
    unpack binary32 (packComponents binary32 .positive (unpackExponent b) (unpackMantissa b)) =
      (unpack binary32 b).abs := by
  simp only [unpack, unpackMantissa_packComponents, unpackExponent_packComponents,
    unpackSign_packComponents, Sign.ofBitVec_toBitVec]
  split_ifs <;> rfl

/-- What a code stands for is packed without loss. -/
theorem unpack_pack_unpack (b : BitVec binary32.numBits) :
    unpack binary32 (pack binary32 (unpack binary32 b)) = unpack binary32 b := by
  rw [pack_unpack]
  split_ifs with hnan
  · rw [← isNaN_unpack, isNaN_iff] at hnan
    rw [hnan]
    rfl
  · rfl

/-- The magnitude of a number is exact. -/
theorem unpack_abs (x : Float32) : x.abs.toModel.unpack = x.toModel.unpack.abs := by
  have hpack := unpack_pack_unpack (packComponents binary32 .positive
    (unpackExponent x.toModel.toBits.toBitVec) (unpackMantissa x.toModel.toBits.toBitVec))
  rw [unpack_positive] at hpack
  exact hpack

/-- Dropping the sign makes no NaN and removes none. -/
theorem isNaN_abs (x : Float32) : x.abs.isNaN = x.isNaN := by
  rw [isNaN_eq_unpack, isNaN_eq_unpack, unpack_abs]
  cases x.toModel.unpack <;> rfl

/-- Dropping the sign does not change whether a number is finite. -/
theorem isFinite_abs (x : Float32) : x.abs.isFinite = x.isFinite := by
  rw [isFinite_eq_unpack, isFinite_eq_unpack, unpack_abs]
  cases x.toModel.unpack <;> rfl

/-! ### Differences -/

/-- A finite number is a zero or has a significand. -/
theorem finite_cases (h : x.isFinite = true) : (∃ s, x.toModel.unpack = .zero s) ∨
    ∃ s m e hm, x.toModel.unpack = .finite s m e hm := by
  rw [isFinite_eq_unpack] at h
  cases hu : x.toModel.unpack with
  | zero s => exact .inl ⟨s, rfl⟩
  | finite s m e hm => exact .inr ⟨s, m, e, hm, rfl⟩
  | _ =>
    rw [hu] at h
    cases h

/-- A number that is not finite is a NaN or an infinity. -/
theorem not_finite_cases (h : x.isFinite = false) :
    x.toModel.unpack = .notANumber ∨ ∃ s, x.toModel.unpack = .infinity s := by
  rw [isFinite_eq_unpack] at h
  cases hu : x.toModel.unpack with
  | notANumber => exact .inl rfl
  | infinity s => exact .inr ⟨s, rfl⟩
  | _ =>
    rw [hu] at h
    cases h

/-- An exact sum of finite numbers is no NaN once it is rounded. -/
theorem isNaN_normalize (m e : Int) (s : Sign) :
    (UnpackedFloat.normalize binary32 m e s).isNaN = false := by
  unfold UnpackedFloat.normalize
  split
  · exact isNaN_roundWithAccuracy ..
  · rfl
  · exact isNaN_roundWithAccuracy ..

/-- The difference of a number and a finite one is a number. -/
theorem isNaN_sub_of_finite (hx : x.isNaN = false) (hy : y.isFinite = true) :
    (x - y).isNaN = false := by
  have hsub : (x - y).isNaN =
      (UnpackedFloat.sub binary32 x.toModel.unpack y.toModel.unpack).isNaN := isNaN_pack _
  rw [isNaN_eq_unpack] at hx
  rw [hsub]
  cases hu : x.toModel.unpack with
  | notANumber =>
    rw [hu] at hx
    cases hx
  | infinity s =>
    obtain ⟨t, hy⟩ | ⟨t, m, e, hm, hy⟩ := finite_cases hy <;> rw [hy] <;> rfl
  | zero s =>
    obtain ⟨t, hy⟩ | ⟨t, m, e, hm, hy⟩ := finite_cases hy <;> rw [hy]
    · cases s <;> cases t <;> rfl
    · rfl
  | finite s m e hm =>
    obtain ⟨t, hy⟩ | ⟨t, m', e', hm', hy⟩ := finite_cases hy <;> rw [hy]
    · rfl
    · exact isNaN_normalize ..

/-- A difference is the difference of the unpacked numbers where this is no finite number. -/
theorem unpack_sub {u : UnpackedFloat} (hu : ∀ s m e h, u ≠ .finite s m e h)
    (h : UnpackedFloat.sub binary32 x.toModel.unpack y.toModel.unpack = u) :
    (x - y).toModel.unpack = u := by
  subst h
  exact unpack_pack hu

/-- The difference from a NaN, or of a NaN from anything, is no number. -/
theorem isNaN_sub_of_isNaN (h : x.isNaN = true ∨ y.isNaN = true) : (x - y).isNaN = true := by
  have hsub : UnpackedFloat.sub binary32 x.toModel.unpack y.toModel.unpack = .notANumber := by
    simp only [isNaN_iff_unpack_eq] at h
    rcases h with hx | hy
    · rw [hx, UnpackedFloat.sub]
    · rw [hy]
      cases x.toModel.unpack <;> rfl
  exact isNaN_iff_unpack_eq.mpr (unpack_sub nofun hsub)

/-- A difference with an infinity is a NaN or infinite. -/
theorem sub_infinity_cases (u : UnpackedFloat) (s : Sign) :
    UnpackedFloat.sub binary32 u (.infinity s) = .notANumber ∨
      ∃ t, UnpackedFloat.sub binary32 u (.infinity s) = .infinity t := by
  cases u with
  | notANumber => exact .inl rfl
  | infinity t =>
    cases s <;> cases t
    · exact .inl rfl
    · exact .inr ⟨_, rfl⟩
    · exact .inr ⟨_, rfl⟩
    · exact .inl rfl
  | zero t => exact .inr ⟨_, rfl⟩
  | finite t m e hm => exact .inr ⟨_, rfl⟩

/-- The distance from an infinity is infinite or no number. -/
theorem unpack_abs_sub_infinity {s : Sign} (hy : y.toModel.unpack = .infinity s) :
    (x - y).abs.toModel.unpack = .notANumber ∨
      (x - y).abs.toModel.unpack = .infinity .positive := by
  rw [unpack_abs]
  rcases sub_infinity_cases x.toModel.unpack s with hsub | ⟨t, hsub⟩ <;> rw [← hy] at hsub
  · have hdifference : (x - y).toModel.unpack = .notANumber := unpack_sub nofun hsub
    exact .inl (by rw [hdifference, UnpackedFloat.abs])
  · have hdifference : (x - y).toModel.unpack = .infinity t := unpack_sub nofun hsub
    exact .inr (by rw [hdifference, UnpackedFloat.abs])

/-! ### Scales of at least one -/

/-- A finite number does not unpack to an infinity. -/
theorem ne_infinity_of_finite (h : x.isFinite = true) (s : Sign) :
    x.toModel.unpack ≠ .infinity s := by
  intro hx
  rw [isFinite_eq_unpack, hx] at h
  cases h

/-- The scale of a relative distance is positive, whatever the reference is. -/
theorem greater_abs_one_pos (y : Float32) : 0 < greater y.abs 1 := by
  have hone : (0 : Float32) < 1 := by decide
  cases hy : y.abs.isNaN with
  | true =>
    rw [greater, if_pos hy]
    exact hone
  | false => exact (lt_greater_iff hy).mpr (.inr hone)

/-- The scale of a finite number is finite. -/
theorem isFinite_greater_abs_one (hy : y.isFinite = true) : (greater y.abs 1).isFinite = true := by
  have hone : (1 : Float32).isFinite = true := by decide
  rw [← isFinite_abs] at hy
  unfold greater
  split_ifs
  · exact hone
  · exact hy
  · exact hone
  · exact hy

/-- The scale of an infinity is infinite. -/
theorem unpack_greater_abs_one {s : Sign} (hy : y.toModel.unpack = .infinity s) :
    (greater y.abs 1).toModel.unpack = .infinity .positive := by
  have habs : y.abs.toModel.unpack = .infinity .positive := by
    rw [unpack_abs, hy, UnpackedFloat.abs]
  have hnan : y.abs.isNaN = false := by
    rw [isNaN_eq_unpack, habs]
    rfl
  have hone : (1 : Float32).isNaN = false := by decide
  have hlt : ¬ y.abs < 1 := by
    rw [lt_iff_compare, habs]
    decide
  simp only [greater, hnan, hone, hlt, Bool.false_eq_true, ite_false, habs]

/-! ### Relative distances -/

/-- A quotient is no number where the unpacked quotient is none. -/
theorem isNaN_div_of_eq
    (h : UnpackedFloat.div binary32 x.toModel.unpack y.toModel.unpack = .notANumber) :
    (x / y).isNaN = true := by
  have hdiv : (x / y).isNaN =
      (UnpackedFloat.div binary32 x.toModel.unpack y.toModel.unpack).isNaN := isNaN_pack _
  rw [hdiv, h]
  rfl

/-- A distance relative to the scale of the second number is no number exactly if the first number
is a NaN or the second one is not finite. -/
theorem isNaN_distance_iff (x y : Float32) :
    ((x - y).abs / greater y.abs 1).isNaN = true ↔ x.isNaN = true ∨ y.isFinite = false := by
  constructor
  · intro h
    by_contra hnot
    simp only [not_or, Bool.not_eq_true, Bool.not_eq_false] at hnot
    have hdistance : (x - y).abs.isNaN = false := by
      rw [isNaN_abs]
      exact isNaN_sub_of_finite hnot.1 hnot.2
    exact ne_infinity_of_finite (isFinite_greater_abs_one hnot.2) _
      (infinite_of_isNaN_div hdistance (greater_abs_one_pos y) h)
  · intro h
    have hnan : (x - y).isNaN = true → ((x - y).abs / greater y.abs 1).isNaN = true := by
      intro hsub
      rw [← isNaN_abs, isNaN_iff_unpack_eq] at hsub
      exact isNaN_div_of_eq (by rw [hsub, UnpackedFloat.div])
    rcases h with hx | hy
    · exact hnan (isNaN_sub_of_isNaN (.inl hx))
    · rcases not_finite_cases hy with hy | ⟨s, hy⟩
      · exact hnan (isNaN_sub_of_isNaN (.inr (isNaN_iff_unpack_eq.mpr hy)))
      · apply isNaN_div_of_eq
        rw [unpack_greater_abs_one hy]
        rcases unpack_abs_sub_infinity hy with hsub | hsub <;> rw [hsub] <;> rfl

end Single

end RoutedExperts
