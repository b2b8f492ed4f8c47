import Mathlib
import RoutedExperts.Proofs.Numeric.Distance
import RoutedExperts.Proofs.Numeric.Scalar

/-!
# The values of numbers

A finite number stands for a whole number of steps of its binade, and so for a rational number,
`Single.value`. Both codecs read a code alike (`Single.datum_eq`), so this value belongs to the
unpacked numbers that arithmetic works on as well, and numbers are compared by it
(`Single.lt_iff_value_lt`).
-/

namespace RoutedExperts

/-- A magnitude with a sign. -/
def signedValue (negative : Bool) (v : ℚ) : ℚ := if negative then -v else v

theorem signedValue_zero (negative : Bool) : signedValue negative 0 = 0 := by
  cases negative
  · rfl
  · exact neg_zero

/-- A sign does not change the distance from zero. -/
theorem abs_signedValue (negative : Bool) (v : ℚ) : |signedValue negative v| = |v| := by
  cases negative
  · rfl
  · exact abs_neg v

/-- The rational number that a finite datum stands for; an infinity and a NaN have none. -/
def Datum.value : Datum → ℚ
  | .finite negative mantissa exponent => signedValue negative (mantissa * 2 ^ exponent)
  | _ => 0

theorem cast_twoTo (k : Nat) : ((twoTo k : Nat) : ℚ) = 2 ^ k := by
  rw [twoTo, Nat.one_shiftLeft, Nat.cast_pow, Nat.cast_ofNat]

/-- Spacings of a larger binade, or more of them in the same binade, make a larger number. -/
theorem Format.Canonical.mul_twoTo_lt {f : Format} {b b' m m' : Nat} (h : f.Canonical b m)
    (h' : f.Canonical b' m') (hlt : b < b' ∨ b = b' ∧ m < m') :
    m * twoTo b < m' * twoTo b' := by
  rcases hlt with hbinade | ⟨rfl, hsteps⟩
  · have hlead : twoTo f.fractionBits ≤ m' := h'.leading.resolve_left (by omega)
    have hless : m < 2 * m' := Nat.lt_of_lt_of_le h.steps_lt (by omega)
    obtain ⟨k, rfl⟩ : ∃ k, b' = b + (k + 1) := ⟨b' - b - 1, by omega⟩
    calc m * twoTo b < 2 * m' * twoTo b := Nat.mul_lt_mul_of_pos_right hless (twoTo_pos b)
      _ ≤ 2 * m' * twoTo b * twoTo k := Nat.le_mul_of_pos_right _ (twoTo_pos k)
      _ = m' * twoTo (b + (k + 1)) := by rw [twoTo_add, twoTo_succ]; ring
  · exact Nat.mul_lt_mul_of_pos_right hsteps (twoTo_pos b)

namespace Single

open Float.Model (UnpackedFloat)
open Float.Model.UnpackedFloat
open Float.Model.Format (binary32)

/-- The rational number that a finite number stands for. -/
def value (x : Float32) : ℚ := (datum x).value

/-- A finite datum gives its number the value of mantissa and exponent, with the sign. -/
theorem value_of_datum {x : Float32} {negative : Bool} {m : Nat} {e : Int}
    (h : datum x = .finite negative m e) : value x = signedValue negative (m * 2 ^ e) := by
  rw [value, h, Datum.value]

/-! ### Unpacked numbers -/

/-- Whether a sign is that of negative numbers. -/
def isNegative : Sign → Bool
  | .negative => true
  | .positive => false

/-- An unpacked number as a datum. -/
def ofUnpacked : UnpackedFloat → Datum
  | .notANumber => .nan
  | .infinity s => .infinite (isNegative s)
  | .zero s => .finite (isNegative s) 0 (-149)
  | .finite s m e _ => .finite (isNegative s) m e

/-- The sign is negative exactly if its bit is one. -/
theorem isNegative_ofBitVec (b : BitVec 1) : isNegative (Sign.ofBitVec b) = (b.toNat == 1) := by
  revert b
  decide

/-- A code is read alike by both codecs. -/
theorem ofUnpacked_unpack (b : BitVec binary32.numBits) :
    ofUnpacked (unpack binary32 b) = Format.single.decode b.toNat := by
  have hsign : (b.toNat / Format.single.signCode % 2 == 1) =
      isNegative (Sign.ofBitVec (unpackSign b)) := by
    have hbit : (unpackSign b).toNat = b.toNat >>> 31 % 2 := rfl
    rw [isNegative_ofBitVec, hbit, Nat.shiftRight_eq_div_pow]
    rfl
  have hdecode : Format.single.decode b.toNat =
      if (unpackExponent b).toNat = (-BitVec.ofNat binary32.exponentBits 1).toNat then
        if (unpackMantissa b).toNat =
            (BitVec.ofNat binary32.mantissaBitsWithoutImplicit 0).toNat then
          .infinite (isNegative (Sign.ofBitVec (unpackSign b)))
        else .nan
      else if (unpackExponent b).toNat = (BitVec.ofNat binary32.exponentBits 0).toNat then
        .finite (isNegative (Sign.ofBitVec (unpackSign b))) (unpackMantissa b).toNat (-149)
      else .finite (isNegative (Sign.ofBitVec (unpackSign b))) (twoTo 23 + (unpackMantissa b).toNat)
        (-149 + (unpackExponent b).toNat - 1) := by
    rw [← hsign]
    rfl
  have hbias : ((binary32.exponentBias : Int) + binary32.mantissaBitsWithoutImplicit) = 150 := rfl
  have hmantissa : (BitVec.ofNat 1 1 ++ unpackMantissa b).toNat =
      twoTo 23 + (unpackMantissa b).toNat := by
    rw [BitVec.toNat_append, ← Nat.shiftLeft_add_eq_or_of_lt (unpackMantissa b).isLt]
    rfl
  rw [hdecode]
  simp only [unpack, hbias, BitVec.toNat_inj]
  split_ifs with hinf hzero hlow hzero
  · rfl
  · rfl
  · rw [hzero]
    rfl
  · rw [hlow]
    rfl
  · rw [ofUnpacked, Datum.finite.injEq]
    exact ⟨rfl, hmantissa, by omega⟩

variable {x y : Float32}

/-- The datum of a number is read off its unpacked form. -/
theorem datum_eq (x : Float32) : datum x = ofUnpacked x.toModel.unpack :=
  (ofUnpacked_unpack x.toModel.toBits.toBitVec).symm

/-- A number that unpacks to zero has the value zero. -/
theorem value_of_zero {s : Sign} (h : x.toModel.unpack = .zero s) : value x = 0 := by
  rw [value, datum_eq, h, ofUnpacked, Datum.value, Nat.cast_zero, zero_mul, signedValue_zero]

/-- A number that unpacks to mantissa and exponent has the value of these. -/
theorem value_of_finite {s : Sign} {m : Nat} {e : Int} {hm : 0 < m}
    (h : x.toModel.unpack = .finite s m e hm) :
    value x = signedValue (isNegative s) (m * 2 ^ e) := by
  apply value_of_datum
  rw [datum_eq, h, ofUnpacked]

/-- A number that unpacks to zero is finite. -/
theorem isFinite_of_zero {s : Sign} (h : x.toModel.unpack = .zero s) : x.isFinite = true := by
  rw [isFinite_eq_unpack, h]
  rfl

/-- A number that unpacks to mantissa and exponent is finite. -/
theorem isFinite_of_finite {s : Sign} {m : Nat} {e : Int} {hm : 0 < m}
    (h : x.toModel.unpack = .finite s m e hm) : x.isFinite = true := by
  rw [isFinite_eq_unpack, h]
  rfl

/-- A number is finite when its code stands for a finite datum. -/
theorem isFinite_iff_datum :
    x.isFinite = true ↔ ∃ negative m e, datum x = .finite negative m e := by
  rw [isFinite_eq_unpack, datum_eq]
  cases x.toModel.unpack <;> simp [ofUnpacked, UnpackedFloat.isFinite]

/-- A finite number is written as a number of steps of a binade. -/
theorem exists_canonical_datum (h : x.isFinite = true) : ∃ negative binade steps,
    Format.single.Canonical binade steps ∧
      datum x = .finite negative steps (-149 + (binade : Int)) := by
  obtain ⟨n, m, e, hdatum⟩ := isFinite_iff_datum.mp h
  have hsize : x.toBits.toNat < 2 * Format.single.signCode := x.toBits.toNat_lt
  obtain ⟨negative, code, hcode, hbits⟩ := Format.exists_eq_signed hsize
  have hread : datum x = Format.single.decode (Format.single.signed negative code) := by
    rw [datum, hbits]
  rcases Nat.lt_trichotomy code Format.single.infinityCode with hfinite | rfl | hnan
  · obtain ⟨binade, steps, hc, rfl⟩ := Format.exists_canonical hfinite
    exact ⟨negative, binade, steps, hc, hread.trans (hc.decode_signed negative)⟩
  · rw [hread, Format.decode_signed_infinityCode] at hdatum
    cases hdatum
  · rw [hread, Format.decode_signed_eq_nan negative hnan hcode] at hdatum
    cases hdatum

/-- The mantissa of an unpacked number is canonical for some binade, which gives its exponent. -/
theorem canonical_of_unpack {s : Sign} {m : Nat} {e : Int} {hm : 0 < m}
    (h : x.toModel.unpack = .finite s m e hm) :
    ∃ binade : Nat, Format.single.Canonical binade m ∧ e = -149 + (binade : Int) := by
  obtain ⟨negative, binade, steps, hc, hdatum⟩ := exists_canonical_datum (isFinite_of_finite h)
  rw [datum_eq, h, ofUnpacked, Datum.finite.injEq] at hdatum
  obtain ⟨-, rfl, rfl⟩ := hdatum
  exact ⟨binade, hc, rfl⟩

/-! ### Comparisons -/

/-- Of two magnitudes the one with the larger exponent is larger, and with equal exponents the one
with the larger significand. -/
theorem magnitude_lt {s t : Sign} {m m' : Nat} {e e' : Int} {hm : 0 < m} {hm' : 0 < m'}
    (hx : x.toModel.unpack = .finite s m e hm) (hy : y.toModel.unpack = .finite t m' e' hm')
    (hlt : e < e' ∨ e = e' ∧ m < m') : (m * 2 ^ e : ℚ) < m' * 2 ^ e' := by
  obtain ⟨b, hc, rfl⟩ := canonical_of_unpack hx
  obtain ⟨b', hc', rfl⟩ := canonical_of_unpack hy
  have hnat : m * twoTo b < m' * twoTo b' := hc.mul_twoTo_lt hc' (by omega)
  have hunit : (0 : ℚ) < 2 ^ (-149 : ℤ) := by positivity
  have hsplit (n k : Nat) :
      (n : ℚ) * 2 ^ (-149 + (k : ℤ)) = ((n * twoTo k : Nat) : ℚ) * 2 ^ (-149 : ℤ) := by
    rw [zpow_add₀ two_ne_zero, zpow_natCast, Nat.cast_mul, cast_twoTo]
    ring
  rw [hsplit, hsplit]
  exact mul_lt_mul_of_pos_right (Nat.cast_lt.mpr hnat) hunit

theorem magnitude_pos {m : Nat} (hm : 0 < m) (e : Int) : (0 : ℚ) < m * 2 ^ e := by positivity

/-- Finite numbers of larger rank have larger values. -/
theorem value_lt_of_rank_lt (hx : x.isFinite = true) (hy : y.isFinite = true)
    (h : rank x < rank y) : value x < value y := by
  rw [rank, rank] at h
  rcases finite_cases hx with ⟨s, hx⟩ | ⟨s, m, e, hm, hx⟩ <;>
    rcases finite_cases hy with ⟨t, hy⟩ | ⟨t, m', e', hm', hy⟩ <;> rw [hx, hy] at h
  · exact absurd h (lt_irrefl _)
  · rw [value_of_zero hx, value_of_finite hy]
    cases t with
    | positive => exact magnitude_pos hm' e'
    | negative => exact absurd h (by simp [unpackedRank, Prod.Lex.lt_iff])
  · rw [value_of_finite hx, value_of_zero hy]
    cases s with
    | positive => exact absurd h (by simp [unpackedRank, Prod.Lex.lt_iff])
    | negative => exact neg_neg_of_pos (magnitude_pos hm e)
  · rw [value_of_finite hx, value_of_finite hy]
    cases s with
    | positive =>
      cases t with
      | positive =>
        have hlt : e < e' ∨ e = e' ∧ m < m' := by
          simpa [unpackedRank, Prod.Lex.lt_iff] using h
        exact magnitude_lt hx hy hlt
      | negative => exact absurd h (by simp [unpackedRank, Prod.Lex.lt_iff])
    | negative =>
      cases t with
      | positive =>
        exact lt_trans (neg_neg_of_pos (magnitude_pos hm e)) (magnitude_pos hm' e')
      | negative =>
        have hlt : e' < e ∨ e' = e ∧ m' < m := by
          simpa [unpackedRank, Prod.Lex.lt_iff, eq_comm] using h
        exact neg_lt_neg (magnitude_lt hy hx hlt)

/-- Finite numbers of one rank have one value. -/
theorem value_eq_of_rank_eq (hx : x.isFinite = true) (hy : y.isFinite = true)
    (h : rank x = rank y) : value x = value y := by
  rw [rank, rank] at h
  rcases finite_cases hx with ⟨s, hx⟩ | ⟨s, m, e, hm, hx⟩ <;>
    rcases finite_cases hy with ⟨t, hy⟩ | ⟨t, m', e', hm', hy⟩ <;> rw [hx, hy] at h
  · rw [value_of_zero hx, value_of_zero hy]
  · cases t <;> simp [unpackedRank] at h
  · cases s <;> simp [unpackedRank] at h
  · rw [value_of_finite hx, value_of_finite hy]
    cases s <;> cases t <;> simp [unpackedRank] at h
    · obtain ⟨rfl, rfl⟩ := h
      rfl
    · obtain ⟨rfl, rfl⟩ := h
      rfl

/-- A finite number is no NaN. -/
theorem isNaN_of_isFinite (h : x.isFinite = true) : x.isNaN = false := by
  rcases finite_cases h with ⟨s, h⟩ | ⟨s, m, e, hm, h⟩ <;>
    · rw [isNaN_eq_unpack, h]
      rfl

/-- Finite numbers are compared by their values. -/
theorem lt_iff_value_lt (hx : x.isFinite = true) (hy : y.isFinite = true) :
    x < y ↔ value x < value y := by
  rw [lt_iff_rank_lt (isNaN_of_isFinite hx) (isNaN_of_isFinite hy)]
  constructor
  · exact value_lt_of_rank_lt hx hy
  · intro h
    rcases lt_trichotomy (rank x) (rank y) with hlt | heq | hgt
    · exact hlt
    · exact absurd h (value_eq_of_rank_eq hx hy heq).not_lt
    · exact absurd h (value_lt_of_rank_lt hy hx hgt).not_gt

/-! ### Magnitudes -/

/-- The magnitude of a finite number is a number of steps of a binade. -/
theorem exists_canonical_value (h : x.isFinite = true) : ∃ binade steps : Nat,
    Format.single.Canonical binade steps ∧ |value x| = steps * 2 ^ (-149 + (binade : ℤ)) := by
  obtain ⟨negative, binade, steps, hc, hdatum⟩ := exists_canonical_datum h
  refine ⟨binade, steps, hc, ?_⟩
  rw [value_of_datum hdatum, abs_signedValue]
  exact abs_of_nonneg (by positivity)

/-- The magnitude of a finite number has the magnitude of its value. -/
theorem value_abs (h : x.isFinite = true) : value x.abs = |value x| := by
  rcases finite_cases h with ⟨s, hx⟩ | ⟨s, m, e, hm, hx⟩
  · have habs : x.abs.toModel.unpack = .zero .positive := by
      rw [unpack_abs, hx]
      rfl
    rw [value_of_zero hx, value_of_zero habs, abs_zero]
  · have habs : x.abs.toModel.unpack = .finite .positive m e hm := by
      rw [unpack_abs, hx]
      rfl
    rw [value_of_finite hx, value_of_finite habs, abs_signedValue]
    exact (abs_of_pos (magnitude_pos hm e)).symm

/-- The largest number has all bits of the mantissa set, at the highest exponent. -/
theorem datum_largest : datum largest = .finite false 16777215 104 := by decide +kernel

/-- The least number is the largest one with the other sign. -/
theorem datum_neg_largest : datum (-largest) = .finite true 16777215 104 := by decide +kernel

/-- No finite number is farther from zero than the largest one. -/
theorem abs_value_le_largest (h : x.isFinite = true) : |value x| ≤ 16777215 * 2 ^ (104 : ℤ) := by
  obtain ⟨binade, steps, hc, hvalue⟩ := exists_canonical_value h
  have hsteps : steps ≤ 16777215 := Nat.le_of_lt_succ hc.steps_lt
  have hbinade : binade ≤ 253 := by
    have hfinite : binade * 8388608 + steps < 2139095040 := hc.finite
    have hlead : binade = 0 ∨ 8388608 ≤ steps := hc.leading
    omega
  rw [hvalue]
  gcongr
  · exact_mod_cast hsteps
  · exact one_le_two
  · omega

/-- Below a whole number of at most twenty-three bits there is room of one part in `2 ^ 24`. -/
theorem abs_value_le_of_lt {bound : Nat} (hx : x.isFinite = true) (hbound : bound ≤ 2 ^ 23)
    (h : |value x| < bound) : |value x| * 2 ^ 24 ≤ bound * (2 ^ 24 - 1) := by
  obtain ⟨binade, steps, hc, hvalue⟩ := exists_canonical_value hx
  have hsteps : steps < 16777216 := hc.steps_lt
  have hfine : binade < 149 := by
    by_contra hcoarse
    have hlead : 8388608 ≤ steps := hc.leading.resolve_left (by omega)
    have hle : ((2 ^ 23 : ℕ) : ℚ) ≤ |value x| := by
      rw [hvalue]
      calc ((2 ^ 23 : ℕ) : ℚ) ≤ steps * 1 := by rw [mul_one]; exact_mod_cast hlead
        _ ≤ steps * 2 ^ (-149 + (binade : ℤ)) := by
          gcongr
          exact one_le_zpow₀ one_le_two (by omega)
    exact absurd (lt_of_le_of_lt hle h) (by exact_mod_cast Nat.not_lt.mpr hbound)
  -- the bound is a whole number of steps as well
  obtain ⟨shift, hshift⟩ : ∃ shift : Nat, -149 + (binade : ℤ) = -(shift : ℤ) :=
    ⟨149 - binade, by omega⟩
  have hpos : (0 : ℚ) < 2 ^ shift := by positivity
  have hscaled : |value x| * 2 ^ shift = steps := by
    rw [hvalue, hshift, zpow_neg, zpow_natCast]
    field_simp
  have hlt : steps < bound * 2 ^ shift := by
    have hcast : (steps : ℚ) < bound * 2 ^ shift := by
      rw [← hscaled]
      exact mul_lt_mul_of_pos_right h hpos
    exact_mod_cast hcast
  have hnat : steps * 2 ^ 24 ≤ bound * 2 ^ shift * (2 ^ 24 - 1) := by
    generalize bound * 2 ^ shift = whole at hlt
    omega
  have hcast : (steps : ℚ) * 2 ^ 24 ≤ bound * 2 ^ shift * (2 ^ 24 - 1) := by
    have hle : ((steps * 2 ^ 24 : ℕ) : ℚ) ≤ (bound * 2 ^ shift * (2 ^ 24 - 1) : ℕ) :=
      Nat.cast_le.mpr hnat
    push_cast at hle
    linarith only [hle]
  rw [← hscaled] at hcast
  refine le_of_mul_le_mul_right ?_ hpos
  linarith only [hcast]

end Single

end RoutedExperts
