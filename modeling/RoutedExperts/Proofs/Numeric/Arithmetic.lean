import Mathlib
import RoutedExperts.Proofs.Numeric.Rounding

/-!
# Products and quotients in single precision

A product or a quotient is first cut off and then rounded by two further bits. These bits place the
exact result against the middle between two neighbours (`Single.Tracks`), and a shift to the right
keeps them in place, so what is returned is the exact result rounded once
(`Single.exists_roundWithAccuracy`). `Single.value_mul` and `Single.value_div` say so for numbers
whose exact product or quotient stays below `2 ^ 127`.
-/

namespace RoutedExperts

namespace Single

open Float.Model (UnpackedFloat totalExponent)
open Float.Model.UnpackedFloat
open Float.Model.Format (binary32)

/-! ### Digits beyond the significand -/

/-- The two further bits say where `x` lies between the significand and the next one. -/
inductive Tracks : ExtendedMantissa → ℚ → Prop where
  | exact (m : Nat) : Tracks ⟨m, false, false⟩ m
  | low {m : Nat} {x : ℚ} (hlow : m < x) (hhigh : x < m + 1 / 2) : Tracks ⟨m, false, true⟩ x
  | middle (m : Nat) : Tracks ⟨m, true, false⟩ (m + 1 / 2)
  | high {m : Nat} {x : ℚ} (hlow : m + 1 / 2 < x) (hhigh : x < m + 1) : Tracks ⟨m, true, true⟩ x

namespace Tracks

variable {em : ExtendedMantissa} {x : ℚ}

/-- The mantissa is the whole part of the number it tracks. -/
theorem bounds (h : Tracks em x) : em.mantissa ≤ x ∧ x < em.mantissa + 1 := by
  cases h with
  | exact m => exact ⟨le_rfl, lt_add_one _⟩
  | low hlow hhigh => exact ⟨hlow.le, by linarith⟩
  | middle m => exact ⟨by linarith, by linarith⟩
  | high hlow hhigh => exact ⟨by linarith, hhigh⟩

/-- The remainder of a division places the quotient. -/
theorem fraction (q : Nat) {r d : Nat} (hr : r < d) :
    Tracks (.ofMantissaAndAccuracy q (accuracyOfFraction r d)) (q + r / d) := by
  have hd : (0 : ℚ) < d := Nat.cast_pos.mpr (Nat.zero_lt_of_lt hr)
  rw [accuracyOfFraction]
  split_ifs with hzero
  · rw [hzero, Nat.cast_zero, zero_div, add_zero]
    exact .exact q
  · rcases hcompare : compare (2 * r) d with _ | _ | _
    · rw [Nat.compare_eq_lt] at hcompare
      have hpos : (0 : ℚ) < r / d := div_pos (Nat.cast_pos.mpr (Nat.pos_of_ne_zero hzero)) hd
      have hhalf : (r : ℚ) / d < 1 / 2 := by
        rw [div_lt_div_iff₀ hd two_pos]
        exact_mod_cast (by omega : r * 2 < 1 * d)
      exact .low (by linarith) (by linarith)
    · rw [Nat.compare_eq_eq] at hcompare
      have hhalf : (r : ℚ) / d = 1 / 2 := by
        rw [div_eq_div_iff hd.ne' two_ne_zero]
        exact_mod_cast (by omega : r * 2 = 1 * d)
      rw [hhalf]
      exact .middle q
    · rw [Nat.compare_eq_gt] at hcompare
      have hhalf : 1 / 2 < (r : ℚ) / d := by
        rw [div_lt_div_iff₀ two_pos hd]
        exact_mod_cast (by omega : 1 * d < r * 2)
      have hone : (r : ℚ) / d < 1 := (div_lt_one hd).mpr (Nat.cast_lt.mpr hr)
      exact .high (by linarith) (by linarith)

/-- Halving an even mantissa leaves nothing to round, and keeps whether a digit was lost. -/
theorem shiftRightOne_even (q : Nat) (r s : Bool) :
    ExtendedMantissa.shiftRightOne ⟨2 * q, r, s⟩ = ⟨q, false, r || s⟩ := by
  simp [ExtendedMantissa.shiftRightOne]

/-- Halving an odd mantissa leaves a half to round, and keeps whether a digit was lost. -/
theorem shiftRightOne_odd (q : Nat) (r s : Bool) :
    ExtendedMantissa.shiftRightOne ⟨2 * q + 1, r, s⟩ = ⟨q, true, r || s⟩ := by
  simp [ExtendedMantissa.shiftRightOne, Nat.mul_add_div]

/-- Shifting by one digit tracks half the number. -/
theorem shiftRightOne (h : Tracks em x) : Tracks em.shiftRightOne (x / 2) := by
  -- the last digit becomes the first further bit
  obtain ⟨m, r, s⟩ := em
  obtain ⟨q, rfl | rfl⟩ := Nat.even_or_odd' m
  · rw [shiftRightOne_even]
    cases h with
    | exact =>
      rw [Nat.cast_mul, Nat.cast_ofNat, mul_div_cancel_left₀ _ two_ne_zero]
      exact .exact q
    | low hlow hhigh | high hlow hhigh =>
      push_cast at hlow hhigh
      exact .low (by linarith) (by linarith)
    | middle =>
      push_cast
      exact .low (by linarith) (by linarith)
  · rw [shiftRightOne_odd]
    cases h with
    | exact =>
      rw [Nat.cast_add_one, Nat.cast_mul, Nat.cast_ofNat, add_div,
        mul_div_cancel_left₀ _ two_ne_zero]
      exact .middle q
    | low hlow hhigh | high hlow hhigh =>
      push_cast at hlow hhigh
      exact .high (by linarith) (by linarith)
    | middle =>
      push_cast
      exact .high (by linarith) (by linarith)

/-- Shifting by some digits tracks the number divided by that power of two. -/
theorem shiftRight (h : Tracks em x) (k : Nat) : Tracks (em >>> k) (x / 2 ^ k) := by
  induction k with
  | zero =>
    rw [pow_zero, div_one]
    exact h
  | succ k ih =>
    rw [pow_succ, ← div_div]
    exact ih.shiftRightOne

/-- The rounded mantissa is the number it tracks, rounded. -/
theorem isRounded (h : Tracks em x) : IsRounded x em.roundedMantissa := by
  cases h with
  | exact m => exact .natCast m
  | @low m x hlow hhigh =>
    have hdown : ExtendedMantissa.roundedMantissa ⟨m, false, true⟩ = m := rfl
    rw [hdown]
    exact .of_lt (abs_lt.mpr ⟨by linarith, by linarith⟩)
  | middle m => exact .tie m
  | @high m x hlow hhigh =>
    have hup : ExtendedMantissa.roundedMantissa ⟨m, true, true⟩ = m + 1 := rfl
    rw [hup]
    apply IsRounded.of_lt
    rw [Nat.cast_add_one]
    exact abs_lt.mpr ⟨by linarith, by linarith⟩

end Tracks

/-! ### Rounded results -/

/-- An unpacked number with a significand that may be zero. -/
def ofSteps (s : Sign) (m : Nat) (e : Int) : UnpackedFloat :=
  if h : m = 0 then .zero s else .finite s m e (Nat.pos_of_ne_zero h)

/-- A result gets the exponent that leaves 24 digits, but none below the least one. -/
theorem targetExponent_eq (m : Nat) (e : Int) :
    binary32.targetExponent (totalExponent m e) = max ((m.log2 : Int) + 1 + e - 24) (-149) := rfl

/-- A significand of at most twenty-four digits needs no shift. -/
theorem shiftToTargetExponent_short {n : Nat} {e : Int} (hn : n < 16777216) (he : -149 ≤ e) :
    shiftToTargetExponent binary32 n e .exact = (⟨n, false, false⟩, e) := by
  have hlog : n.log2 < 24 := by
    by_cases hzero : n = 0
    · rw [hzero]
      decide
    · exact (Nat.log2_lt hzero).mpr hn
  have hshift : (binary32.targetExponent (totalExponent n e) - e).toNat = 0 := by
    rw [targetExponent_eq]
    omega
  rw [shiftToTargetExponent, shiftToExponent, hshift]
  simp only [Int.natCast_zero, Int.add_zero]
  rfl

/-- A mantissa that rounding carried to the next binade is halved and its exponent goes up. -/
theorem shiftToTargetExponent_carry {e : Int} (he : -149 ≤ e) :
    shiftToTargetExponent binary32 16777216 e .exact = (⟨8388608, false, false⟩, e + 1) := by
  have hlog : Nat.log2 16777216 = 24 := by decide +kernel
  have hshift : (binary32.targetExponent (totalExponent 16777216 e) - e).toNat = 1 := by
    rw [targetExponent_eq, hlog]
    omega
  rw [shiftToTargetExponent, shiftToExponent, hshift]
  rfl

variable {m : Nat} {e : Int} {a : Accuracy} {t : ℚ}

/-- What was lost before does not change the mantissa. -/
theorem mantissa_ofMantissaAndAccuracy (m : Nat) (a : Accuracy) :
    (ExtendedMantissa.ofMantissaAndAccuracy m a).mantissa = m := by
  rcases a with _ | _ | _ | _ <;> rfl

/-- The first shift leaves the spacing of the format, and rounding picks the nearest number of
spacings. -/
theorem nearest_shiftToTargetExponent (ht : Tracks (.ofMantissaAndAccuracy m a) (t / 2 ^ e))
    (he : e ≤ binary32.targetExponent (totalExponent m e)) : ∃ em spacing,
    shiftToTargetExponent binary32 m e a = (em, spacing) ∧
      Format.single.Nearest t em.roundedMantissa spacing := by
  obtain ⟨k, hk⟩ : ∃ k : Nat, binary32.targetExponent (totalExponent m e) = e + k :=
    ⟨(binary32.targetExponent (totalExponent m e) - e).toNat, by omega⟩
  have hshift : shiftToTargetExponent binary32 m e a =
      (ExtendedMantissa.ofMantissaAndAccuracy m a >>> k, e + k) := by
    rw [shiftToTargetExponent, shiftToExponent, hk, add_sub_cancel_left, Int.toNat_natCast]
  have hpos : (0 : ℚ) < 2 ^ e := by positivity
  obtain ⟨hle, hlt⟩ := ht.bounds
  rw [mantissa_ofMantissaAndAccuracy] at hle hlt
  rw [le_div_iff₀ hpos] at hle
  rw [div_lt_iff₀ hpos] at hlt
  rw [targetExponent_eq] at hk
  have hspacing : max ((m.log2 : Int) + e - (23 : ℕ)) (-149) = e + k := by omega
  have hm : m ≠ 0 ∨ e + (k : Int) = -149 := by
    rw [or_iff_not_imp_left, not_not]
    rintro rfl
    have hlog : Nat.log2 0 = 0 := rfl
    omega
  refine ⟨_, _, hshift, .of_log2 hm hle hlt hspacing ?_⟩
  have hscaled : t / 2 ^ (e + (k : ℤ)) = t / 2 ^ e / 2 ^ k := by
    rw [zpow_add₀ two_ne_zero, zpow_natCast, div_div]
  rw [hscaled]
  exact (ht.shiftRight k).isRounded

/-- What is returned is the exact result rounded once. -/
theorem exists_roundWithAccuracy (s : Sign)
    (ht : Tracks (.ofMantissaAndAccuracy m a) (t / 2 ^ e))
    (he : e ≤ binary32.targetExponent (totalExponent m e)) (hsmall : t < 2 ^ (127 : ℤ)) :
    ∃ binade n : Nat, Format.single.Canonical binade n ∧
      Format.single.Rounds t (n * 2 ^ (-149 + (binade : ℤ))) ∧
      roundWithAccuracy binary32 s m e a = ofSteps s n (-149 + (binade : Int)) := by
  obtain ⟨em, spacing, hshift, hnear⟩ := nearest_shiftToTargetExponent ht he
  obtain ⟨binade, n, hc, hcode, hvalue⟩ := hnear.exists_canonical (hnear.single_code_lt hsmall)
  refine ⟨binade, n, hc, ⟨_, _, hnear, hvalue.symm⟩, ?_⟩
  have hunit : (-149 : Int) ≤ spacing := hnear.unit_le
  have hupper : em.roundedMantissa ≤ 16777216 := hnear.steps_le
  have hlead : binade = 0 ∨ 8388608 ≤ n := hc.leading
  have hlt : n < 16777216 := hc.steps_lt
  have hcode : (spacing - -149).toNat * 8388608 + em.roundedMantissa = binade * 8388608 + n := hcode
  have hfinal : shiftToTargetExponent binary32 em.roundedMantissa spacing .exact =
      (⟨n, false, false⟩, -149 + (binade : Int)) := by
    rcases Nat.lt_or_eq_of_le hupper with hshort | hcarry
    · have hlow : spacing = -149 ∨ 8388608 ≤ em.roundedMantissa := by
        by_cases hspacing : spacing = -149
        · exact .inl hspacing
        · exact .inr (hnear.le_steps hspacing)
      have hsame : em.roundedMantissa = n ∧ spacing = -149 + (binade : Int) := by omega
      rw [hsame.1, hsame.2]
      exact shiftToTargetExponent_short hlt (by omega)
    · have hsame : n = 8388608 ∧ spacing + 1 = -149 + (binade : Int) := by omega
      rw [hcarry, hsame.1, ← hsame.2]
      exact shiftToTargetExponent_carry hunit
  rw [roundWithAccuracy, hshift]
  simp only [hfinal, ofSteps]

/-! ### Numbers of a canonical form -/

theorem isNegative_inj {s t : Sign} (h : isNegative s = isNegative t) : s = t := by
  cases s <;> cases t
  · rfl
  · cases h
  · cases h
  · rfl

/-- An unpacked number is known from its datum. -/
theorem eq_ofSteps {u : UnpackedFloat} {s : Sign} {n : Nat} {e : Int}
    (h : ofUnpacked u = .finite (isNegative s) n e) : u = ofSteps s n e := by
  cases u with
  | notANumber => cases h
  | infinity s' => cases h
  | zero s' =>
    rw [ofUnpacked, Datum.finite.injEq] at h
    rw [ofSteps, dif_pos h.2.1.symm, isNegative_inj h.1]
  | finite s' m e' hm =>
    rw [ofUnpacked, Datum.finite.injEq] at h
    obtain ⟨hs, rfl, rfl⟩ := h
    rw [ofSteps, dif_neg hm.ne', isNegative_inj hs]

/-- Numbers in canonical form are kept. -/
theorem unpack_pack_ofSteps (s : Sign) {binade n : Nat} (hc : Format.single.Canonical binade n) :
    (Float32.Model.pack (ofSteps s n (-149 + (binade : Int)))).unpack =
      ofSteps s n (-149 + (binade : Int)) := by
  have hne : Datum.finite (isNegative s) n (-149 + (binade : Int)) ≠ .nan := by simp
  have hdatum := datum_ofDatum hne
  have hencode : Format.single.encode (.finite (isNegative s) n (-149 + (binade : Int))) =
      Format.single.signed (isNegative s)
        (binade * twoTo Format.single.fractionBits + n) := by
    rw [← hc.dyadicCode_eq]
    rfl
  rw [hencode, hc.decode_signed, datum_eq] at hdatum
  have hpack := unpack_pack_unpack
    (ofDatum (.finite (isNegative s) n (-149 + (binade : Int)))).toModel.toBits.toBitVec
  have hunpack : (ofDatum (.finite (isNegative s) n (-149 + (binade : Int)))).toModel.unpack =
      ofSteps s n (-149 + (binade : Int)) := eq_ofSteps hdatum
  rw [← hunpack]
  exact hpack

/-- A number of some steps of a power of two is finite and has their value. -/
theorem value_of_unpack {x : Float32} {s : Sign} {n : Nat} {e : Int}
    (h : x.toModel.unpack = ofSteps s n e) :
    x.isFinite = true ∧ value x = signedValue (isNegative s) (n * 2 ^ e) := by
  rw [ofSteps] at h
  split_ifs at h with hzero
  · refine ⟨isFinite_of_zero h, ?_⟩
    rw [value_of_zero h, hzero, Nat.cast_zero, zero_mul, signedValue_zero]
  · exact ⟨isFinite_of_finite h, value_of_finite h⟩

/-! ### Signed results -/

/-- A number of either sign is rounded by its magnitude. -/
def RoundsTo (t z : ℚ) : Prop := ∃ negative t' z', Format.single.Rounds t' z' ∧ 0 ≤ t' ∧
  t = signedValue negative t' ∧ z = signedValue negative z'

namespace RoundsTo

variable {t z : ℚ}

theorem zero : RoundsTo 0 0 := ⟨false, 0, 0, .zero, le_rfl, rfl, rfl⟩

/-- A result is off by at most the relative error of 24 digits and half the least step. -/
theorem abs_sub_le (h : RoundsTo t z) : |z - t| ≤ |t| / 2 ^ 24 + 2 ^ (-149 : ℤ) / 2 := by
  obtain ⟨negative, t', z', hrounds, ht, rfl, rfl⟩ := h
  have hle := hrounds.abs_sub_le ht
  have hsub : signedValue negative z' - signedValue negative t' =
      signedValue negative (z' - t') := by
    cases negative
    · rfl
    · exact (neg_sub' z' t').symm
  rw [hsub, abs_signedValue, abs_signedValue, abs_of_nonneg ht]
  exact hle

/-- A value of at most twenty-four digits is kept. -/
theorem eq_of_abs_eq (h : RoundsTo t z) {k : Nat} {g : Int} (hk : k < 2 ^ 24) (hg : -149 ≤ g)
    (ht : |t| = k * 2 ^ g) : z = t := by
  obtain ⟨negative, t', z', hrounds, hnonneg, rfl, rfl⟩ := h
  rw [abs_signedValue, abs_of_nonneg hnonneg] at ht
  rw [hrounds.eq_of_eq hk hg ht]

/-- Numbers that are not negative are rounded as in the format. -/
theorem rounds (h : RoundsTo t z) (ht : 0 ≤ t) : Format.single.Rounds t z := by
  obtain ⟨negative, t', z', hrounds, hnonneg, rfl, rfl⟩ := h
  cases negative with
  | false => exact hrounds
  | true =>
    have hzero : t' = 0 := by
      rw [signedValue, if_pos rfl] at ht
      linarith
    subst hzero
    rw [hrounds.eq_zero, signedValue_zero]
    exact .zero

end RoundsTo

/-! ### Products and quotients -/

variable {x y z : Float32}

/-- A product is that of the unpacked factors, packed again. -/
theorem unpack_mul_eq (x y : Float32) : (x * y).toModel.unpack = (Float32.Model.pack
    (UnpackedFloat.mul binary32 x.toModel.unpack y.toModel.unpack)).unpack := rfl

/-- A quotient is that of the unpacked operands, packed again. -/
theorem unpack_div_eq (x y : Float32) : (x / y).toModel.unpack = (Float32.Model.pack
    (UnpackedFloat.div binary32 x.toModel.unpack y.toModel.unpack)).unpack := rfl

/-- A result that unpacks to zero is zero rounded. -/
theorem roundsTo_of_zero {s : Sign} {t : ℚ} (hz : z.toModel.unpack = .zero s) (ht : t = 0) :
    z.isFinite = true ∧ RoundsTo t (value z) := by
  refine ⟨isFinite_of_zero hz, ?_⟩
  rw [value_of_zero hz, ht]
  exact .zero

/-- A result rounded from a mantissa that tracks the exact magnitude is finite and that magnitude
rounded, with the sign. -/
theorem roundsTo_of_roundWithAccuracy {s : Sign}
    (hz : z.toModel.unpack = (Float32.Model.pack (roundWithAccuracy binary32 s m e a)).unpack)
    (ht : Tracks (.ofMantissaAndAccuracy m a) (t / 2 ^ e))
    (he : e ≤ binary32.targetExponent (totalExponent m e)) (hsmall : t < 2 ^ (127 : ℤ)) :
    z.isFinite = true ∧ RoundsTo (signedValue (isNegative s) t) (value z) := by
  obtain ⟨binade, n, hc, hrounds, hresult⟩ := exists_roundWithAccuracy s ht he hsmall
  rw [hresult, unpack_pack_ofSteps s hc] at hz
  obtain ⟨hfinite, hvalue⟩ := value_of_unpack hz
  refine ⟨hfinite, isNegative s, t, _, hrounds, ?_, rfl, hvalue⟩
  have hpos : (0 : ℚ) < 2 ^ e := by positivity
  have hle : (0 : ℚ) ≤ t / 2 ^ e := (Nat.cast_nonneg _).trans ht.bounds.1
  rwa [le_div_iff₀ hpos, zero_mul] at hle

/-- A product has all the digits that rounding needs. -/
theorem product_exponent_le {s s' : Sign} {m m' : Nat} {e e' : Int} {hm : 0 < m} {hm' : 0 < m'}
    (hx : x.toModel.unpack = .finite s m e hm) (hy : y.toModel.unpack = .finite s' m' e' hm') :
    e + e' ≤ binary32.targetExponent (totalExponent (m * m') (e + e')) := by
  obtain ⟨b, hc, rfl⟩ := canonical_of_unpack hx
  obtain ⟨b', hc', rfl⟩ := canonical_of_unpack hy
  have hlead : b = 0 ∨ 8388608 ≤ m := hc.leading
  have hlead' : b' = 0 ∨ 8388608 ≤ m' := hc'.leading
  rw [targetExponent_eq]
  by_cases hdigits : 23 ≤ (m * m').log2
  · omega
  · rw [Nat.le_log2 (Nat.mul_ne_zero hm.ne' hm'.ne')] at hdigits
    have hleft : m ≤ m * m' := Nat.le_mul_of_pos_right m hm'
    have hright : m' ≤ m * m' := Nat.le_mul_of_pos_left m' hm
    omega

/-- The sign of a product is the product of the signs. -/
theorem signedValue_mul (s s' : Sign) (v v' : ℚ) :
    signedValue (isNegative s) v * signedValue (isNegative s') v' =
      signedValue (isNegative (s * s')) (v * v') := by
  cases s <;> cases s' <;> simp [isNegative, signedValue]

/-- A product is the exact product rounded once. -/
theorem value_mul (hx : x.isFinite = true) (hy : y.isFinite = true)
    (hsmall : |value x * value y| < 2 ^ (127 : ℤ)) :
    (x * y).isFinite = true ∧ RoundsTo (value x * value y) (value (x * y)) := by
  rcases finite_cases hx with ⟨s, hx⟩ | ⟨s, m, e, hm, hx⟩
  · rw [value_of_zero hx, zero_mul]
    rcases finite_cases hy with ⟨s', hy⟩ | ⟨s', m', e', hm', hy⟩ <;>
      exact roundsTo_of_zero (unpack_mul nofun (by rw [hx, hy, UnpackedFloat.mul])) rfl
  · rcases finite_cases hy with ⟨s', hy⟩ | ⟨s', m', e', hm', hy⟩
    · rw [value_of_zero hy, mul_zero]
      exact roundsTo_of_zero (unpack_mul nofun (by rw [hx, hy, UnpackedFloat.mul])) rfl
    · have hproduct : (m * 2 ^ e * (m' * 2 ^ e') : ℚ) = (m * m' : ℕ) * 2 ^ (e + e') := by
        rw [zpow_add₀ two_ne_zero]
        push_cast
        ring
      rw [value_of_finite hx, value_of_finite hy, signedValue_mul, hproduct] at hsmall ⊢
      rw [abs_signedValue, abs_of_nonneg (by positivity)] at hsmall
      apply roundsTo_of_roundWithAccuracy (a := .exact) _ _ (product_exponent_le hx hy) hsmall
      · rw [unpack_mul_eq, hx, hy]
        rfl
      · rw [mul_div_cancel_right₀ _ (by positivity)]
        exact .exact _

/-- A quotient is cut off late enough for all the digits that rounding needs. -/
theorem quotient_exponent_le {m m' : Nat} (hm : 0 < m) (hm' : 0 < m') (e e' : Int) :
    (divCore binary32 m e m' e').2.1 ≤ binary32.targetExponent
      (totalExponent (divCore binary32 m e m' e').1 (divCore binary32 m e m' e').2.1) := by
  have htarget : binary32.targetExponent (totalExponent m e - totalExponent m' e') =
      max (((m.log2 : Int) + 1 + e) - (m'.log2 + 1 + e') - 24) (-149) := rfl
  simp only [divCore, targetExponent_eq, htarget]
  generalize hspacing : min (e - e') (max (((m.log2 : Int) + 1 + e) - (m'.log2 + 1 + e') - 24)
    (-149)) = spacing
  by_cases hunit : spacing ≤ -149
  · omega
  · obtain ⟨k, hk⟩ : ∃ k : Nat, e - e' - spacing = k := ⟨(e - e' - spacing).toNat, by omega⟩
    have hdigits : twoTo 23 ≤ m <<< k / m' := by
      rw [Nat.le_div_iff_mul_le hm', shiftLeft_eq_mul_twoTo]
      calc twoTo 23 * m' ≤ twoTo 23 * twoTo (m'.log2 + 1) :=
            Nat.mul_le_mul_left _ (lt_twoTo_log2_succ m').le
        _ = twoTo (23 + (m'.log2 + 1)) := (twoTo_add _ _).symm
        _ ≤ twoTo (m.log2 + k) := by
          rw [twoTo, twoTo, Nat.one_shiftLeft, Nat.one_shiftLeft]
          exact Nat.pow_le_pow_right two_pos (by omega)
        _ = twoTo m.log2 * twoTo k := twoTo_add _ _
        _ ≤ m * twoTo k := Nat.mul_le_mul_right _ (twoTo_log2_le hm.ne')
    have hlog : 23 ≤ (m <<< k / m').log2 := by
      rw [Nat.le_log2 (Nat.ne_of_gt (Nat.lt_of_lt_of_le (twoTo_pos 23) hdigits))]
      exact hdigits
    rw [hk, Int.toNat_natCast]
    omega

/-- The quotient that is cut off, and the remainder, are those of the exact quotient. -/
theorem tracks_divCore {m m' : Nat} (hm' : 0 < m') (e e' : Int) :
    Tracks (.ofMantissaAndAccuracy (divCore binary32 m e m' e').1 (divCore binary32 m e m' e').2.2)
      (m * 2 ^ e / (m' * 2 ^ e') / 2 ^ (divCore binary32 m e m' e').2.1) := by
  simp only [divCore]
  generalize hspacing : min (e - e') (binary32.targetExponent
    (totalExponent m e - totalExponent m' e')) = spacing
  obtain ⟨k, hk⟩ : ∃ k : Nat, e - e' - spacing = k := ⟨(e - e' - spacing).toNat, by omega⟩
  have hpos : (m' : ℚ) ≠ 0 := Nat.cast_ne_zero.mpr hm'.ne'
  have hexact : (m * 2 ^ e / (m' * 2 ^ e') / 2 ^ spacing : ℚ) =
      (m <<< k / m' : ℕ) + (m <<< k % m' : ℕ) / m' := by
    have hsplit : ((m <<< k / m' * m' + m <<< k % m' : ℕ) : ℚ) = m * 2 ^ k := by
      rw [div_mul_add_mod, cast_shiftLeft]
    have hpower : (2 : ℚ) ^ e = 2 ^ k * 2 ^ e' * 2 ^ spacing := by
      rw [← zpow_natCast, ← zpow_add₀ two_ne_zero, ← zpow_add₀ two_ne_zero]
      congr 1
      omega
    push_cast at hsplit
    rw [hpower]
    field_simp
    linarith
  rw [hexact, hk, Int.toNat_natCast]
  exact .fraction _ (Nat.mod_lt _ hm')

/-- A quotient is the exact quotient rounded once. -/
theorem value_div (hx : x.isFinite = true) (hy : y.isFinite = true) (hpos : 0 < value y)
    (hsmall : |value x / value y| < 2 ^ (127 : ℤ)) :
    (x / y).isFinite = true ∧ RoundsTo (value x / value y) (value (x / y)) := by
  rcases finite_cases hy with ⟨s', hy⟩ | ⟨s', m', e', hm', hy⟩
  · rw [value_of_zero hy] at hpos
    exact absurd hpos (lt_irrefl _)
  · have hs' : s' = .positive := by
      cases s' with
      | positive => rfl
      | negative =>
        rw [value_of_finite hy] at hpos
        exact absurd (neg_pos.mp hpos) (magnitude_pos hm' e').not_gt
    subst hs'
    rcases finite_cases hx with ⟨s, hx⟩ | ⟨s, m, e, hm, hx⟩
    · rw [value_of_zero hx, zero_div]
      refine roundsTo_of_zero (s := s / .positive) ?_ rfl
      rw [unpack_div_eq, hx, hy]
      exact unpack_pack nofun
    · have hquotient : signedValue (isNegative s) (m * 2 ^ e) / (m' * 2 ^ e' : ℚ) =
          signedValue (isNegative (s / .positive)) (m * 2 ^ e / (m' * 2 ^ e')) := by
        cases s
        · exact neg_div _ _
        · rfl
      have hvalue : value y = m' * 2 ^ e' := value_of_finite hy
      rw [value_of_finite hx, hvalue, hquotient] at hsmall ⊢
      rw [abs_signedValue, abs_of_nonneg (by positivity)] at hsmall
      refine roundsTo_of_roundWithAccuracy ?_ (tracks_divCore hm' e e')
        (quotient_exponent_le hm hm' e e') hsmall
      rw [unpack_div_eq, hx, hy]
      rfl

end Single

end RoutedExperts
