import Mathlib
import RoutedExperts.Proofs.Numeric.Order

/-!
# Zeros, infinities and NaN

Results that are no finite numbers are kept when they are packed (`Single.unpack_pack`), and no
finite number is packed as a NaN (`Single.isNaN_pack`). So a product with a zero and a quotient by a
positive number are known from the kinds of their operands.
-/

namespace RoutedExperts

namespace Single

open Float.Model (UnpackedFloat)
open Float.Model.UnpackedFloat
open Float.Model.Format (binary32)

/-! ### Packed results -/

/-- Zeros, infinities and NaN are kept. -/
theorem unpack_pack {u : UnpackedFloat} (hu : ∀ s m e h, u ≠ .finite s m e h) :
    (Float32.Model.pack u).unpack = u := by
  cases u with
  | notANumber => rfl
  | infinity s => cases s <;> rfl
  | zero s => cases s <;> rfl
  | finite s m e h => exact absurd rfl (hu s m e h)

/-- The unpacked form is a NaN exactly if the bits are those of one. -/
theorem isNaN_unpack (b : BitVec binary32.numBits) :
    (unpack binary32 b).isNaN = true ↔ isNaNBits b = true := by
  simp only [unpack, isNaNBits, decide_eq_true_eq]
  split_ifs with htop hfraction
  · simp only [UnpackedFloat.isNaN, hfraction, ne_eq, not_true_eq_false, and_false,
      Bool.false_eq_true]
  · simp only [UnpackedFloat.isNaN, htop, hfraction, ne_eq, not_false_eq_true, and_true]
  all_goals simp only [UnpackedFloat.isNaN, htop, false_and, Bool.false_eq_true]

/-- A NaN is the only value that is packed as a NaN. -/
theorem isNaN_pack (u : UnpackedFloat) : (Float32.Model.pack u).isNaN = u.isNaN := by
  cases u with
  | notANumber => rfl
  | infinity s => cases s <;> rfl
  | zero s => cases s <;> rfl
  | finite s m e h =>
    have hfinite : (UnpackedFloat.finite s m e h).isNaN = false := rfl
    rw [hfinite, Bool.eq_false_iff]
    intro hnan
    obtain ⟨hexponent, hfraction⟩ := of_decide_eq_true
      ((isNaN_unpack (pack binary32 (.finite s m e h))).mp hnan)
    simp only [pack] at hexponent hfraction
    split_ifs at hexponent hfraction with hover hlead
    · exact hfraction unpackMantissa_packComponents
    · -- the exponent field of a finite number stays below its largest value
      rw [unpackExponent_packComponents] at hexponent
      have hfield := congrArg BitVec.toNat hexponent
      have htop : (-BitVec.ofNat binary32.exponentBits 1).toNat = 255 := rfl
      have hcodes : 2 ^ binary32.exponentBits = 256 := rfl
      rw [BitVec.toNat_ofNat, htop, hcodes] at hfield
      rw [hcodes] at hover
      omega
    · rw [unpackExponent_packComponents] at hexponent
      exact absurd hexponent (by decide)

variable {x y : Float32}

/-- A number is a NaN exactly if it unpacks to the NaN. -/
theorem isNaN_iff_unpack_eq : x.isNaN = true ↔ x.toModel.unpack = .notANumber := by
  have hkind : x.isNaN = x.toModel.unpack.isNaN := rfl
  rw [hkind]
  cases x.toModel.unpack <;> simp only [UnpackedFloat.isNaN, reduceCtorEq]

/-- A code that stands for no number is that of a NaN. -/
theorem isNaN_of_datum_eq_nan (h : datum x = .nan) : x.isNaN = true := by
  simp only [datum, Format.decode] at h
  split_ifs at h with htop hfraction hlow
  apply (isNaN_unpack x.toBits.toBitVec).mpr
  apply decide_eq_true
  exact ⟨BitVec.eq_of_toNat_eq htop, fun hzero => hfraction (congrArg BitVec.toNat hzero)⟩

/-! ### Positive numbers -/

/-- A positive number is infinite or has a positive significand. -/
theorem pos_cases (h : 0 < y) : y.toModel.unpack = .infinity .positive ∨
    ∃ m e hm, y.toModel.unpack = .finite .positive m e hm := by
  have hzero : (0 : Float32).toModel.unpack = .zero .positive := rfl
  rw [lt_iff_compare, hzero] at h
  cases hy : y.toModel.unpack with
  | notANumber =>
    rw [hy] at h
    cases h
  | infinity s =>
    rw [hy] at h
    cases s with
    | negative => cases h
    | positive => exact .inl rfl
  | zero s =>
    rw [hy] at h
    cases h
  | finite s m e hm =>
    rw [hy] at h
    cases s with
    | negative => cases h
    | positive => exact .inr ⟨m, e, hm, rfl⟩

/-- A positive number is no NaN. -/
theorem isNaN_of_pos (h : 0 < y) : y.isNaN = false := by
  rw [Bool.eq_false_iff]
  intro hnan
  exact not_lt_of_isNaN (.inr hnan) h

/-! ### Products and quotients -/

/-- A product is the product of the unpacked factors where this is no finite number. -/
theorem unpack_mul {u : UnpackedFloat} (hu : ∀ s m e h, u ≠ .finite s m e h)
    (h : UnpackedFloat.mul binary32 x.toModel.unpack y.toModel.unpack = u) :
    (x * y).toModel.unpack = u := by
  subst h
  exact unpack_pack hu

/-- A NaN makes every product a NaN. -/
theorem isNaN_mul_of_isNaN (hx : x.isNaN = true) : (x * y).isNaN = true := by
  rw [isNaN_iff_unpack_eq] at hx ⊢
  exact unpack_mul nofun (by rw [hx, UnpackedFloat.mul])

/-- A zero times an infinity is no number. -/
theorem isNaN_zero_mul_infinity {s t : Sign} (hx : x.toModel.unpack = .zero s)
    (hy : y.toModel.unpack = .infinity t) : (x * y).isNaN = true := by
  rw [isNaN_iff_unpack_eq]
  exact unpack_mul nofun (by rw [hx, hy, UnpackedFloat.mul])

/-- Zero times a finite number is a zero of the product of the signs. -/
theorem unpack_zero_mul_finite {s t : Sign} {m : Nat} {e : Int} {hm : 0 < m}
    (hx : x.toModel.unpack = .zero s) (hy : y.toModel.unpack = .finite t m e hm) :
    (x * y).toModel.unpack = .zero (s * t) :=
  unpack_mul nofun (by rw [hx, hy, UnpackedFloat.mul])

/-- Rounding never makes a NaN. -/
theorem isNaN_roundWithAccuracy (s : Sign) (m : Nat) (e : Int) (a : Accuracy) :
    (roundWithAccuracy binary32 s m e a).isNaN = false := by
  simp only [roundWithAccuracy]
  split_ifs <;> rfl

/-- A number divided by a positive one is a number, unless both are infinite. -/
theorem infinite_of_isNaN_div (hx : x.isNaN = false) (hy : 0 < y) (h : (x / y).isNaN = true) :
    y.toModel.unpack = .infinity .positive := by
  have hquotient : (UnpackedFloat.div binary32 x.toModel.unpack y.toModel.unpack).isNaN = true := by
    rw [← isNaN_pack]
    exact h
  rcases pos_cases hy with hy | ⟨m, e, hm, hy⟩
  · exact hy
  · rw [hy] at hquotient
    cases hu : x.toModel.unpack with
    | notANumber =>
      rw [isNaN_iff_unpack_eq.mpr hu] at hx
      cases hx
    | infinity s =>
      rw [hu] at hquotient
      cases hquotient
    | zero s =>
      rw [hu] at hquotient
      cases hquotient
    | finite s m' e' hm' =>
      rw [hu] at hquotient
      simp only [UnpackedFloat.div, isNaN_roundWithAccuracy, Bool.false_eq_true] at hquotient

/-! ### Equal numbers -/

/-- The same number, zeros of either sign being one number, or both no number. -/
def Alike (x y : Float32) : Prop := (x == y) = true ∨ x.isNaN = true ∧ y.isNaN = true

theorem Alike.refl (x : Float32) : Alike x x := by
  by_cases hx : x.isNaN = true
  · exact .inr ⟨hx, hx⟩
  · rw [Bool.not_eq_true] at hx
    exact .inl ((beq_iff_rank_eq hx hx).mpr rfl)

/-- The sign of a zero does not matter in a product with a positive number. -/
theorem alike_zero_mul {z : Float32} {s t : Sign} (hx : x.toModel.unpack = .zero s)
    (hy : y.toModel.unpack = .zero t) (hz : 0 < z) : Alike (x * z) (y * z) := by
  rcases pos_cases hz with hz | ⟨m, e, hm, hz⟩
  · exact .inr ⟨isNaN_zero_mul_infinity hx hz, isNaN_zero_mul_infinity hy hz⟩
  · have hcompare : (x * z == y * z) = (x * z).toModel.unpack.beq (y * z).toModel.unpack := rfl
    left
    rw [hcompare, unpack_zero_mul_finite hx hz, unpack_zero_mul_finite hy hz]
    rfl

end Single

end RoutedExperts
