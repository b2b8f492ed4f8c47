import RoutedExperts.Proofs.Index
import RoutedExperts.Proofs.Numeric.Powers

/-!
# Codes and what they stand for

The finite codes of a format count spacings: `Canonical` pairs a binade with a number of its
spacings, every finite code has such a pair, and both directions of the codec are read off it
(`Canonical.decode_signed`, `Canonical.dyadicCode_eq`). The code of a datum depends on its value
only (`dyadicCode_mul_twoTo`), so a format that embeds in a wider one gets each of its codes back
from there (`Embeds.encode_decode_encode`).
-/

namespace RoutedExperts

/-! ### Rounded quotients -/

/-- Extending a fraction does not change its rounded quotient. -/
theorem divNearest_mul_right (n d : Nat) {c : Nat} (hc : 0 < c) :
    divNearest (n * c) (d * c) = divNearest n d := by
  simp only [divNearest, Nat.mul_div_mul_right _ _ hc, Nat.mul_mod_mul_right, ← Nat.mul_assoc,
    Nat.mul_lt_mul_right hc]

/-- A quotient that is an integer is not rounded. -/
theorem divNearest_mul_self (q : Nat) {d : Nat} (hd : 0 < d) : divNearest (q * d) d = q := by
  simp only [divNearest, Nat.mul_div_cancel _ hd, Nat.mul_mod_left, Nat.mul_zero, hd, ite_true]

namespace Format

variable (f : Format)

/-! ### The code of a value -/

/-- The code of a datum does not depend on how its value is written. -/
theorem dyadicCode_mul_twoTo (m : Nat) (e : Int) (k : Nat) :
    f.dyadicCode (m * twoTo k) (e - k) = f.dyadicCode m e := by
  have hpos := twoTo_pos k
  by_cases hm : m = 0
  · rw [hm, Nat.zero_mul]
    rfl
  · have hne : m * twoTo k ≠ 0 := Nat.mul_ne_zero hm (Nat.ne_of_gt hpos)
    have hlog : (((m * twoTo k).log2 : Nat) : Int) + (e - k) = m.log2 + e := by
      rw [log2_mul_twoTo hm]
      omega
    simp only [dyadicCode, hm, hne, ite_false, hlog]
    generalize max ((m.log2 : Int) + e - f.fractionBits) f.unitExponent = spacing
    have hsteps : (if spacing ≤ e - k then (m * twoTo k) <<< (e - k - spacing).toNat
        else divNearest (m * twoTo k) (1 <<< (spacing - (e - k)).toNat)) =
          if spacing ≤ e then m <<< (e - spacing).toNat
          else divNearest m (1 <<< (spacing - e).toNat) := by
      simp only [shiftLeft_eq_mul_twoTo, Nat.one_mul]
      by_cases hexact : spacing ≤ e - k
      · -- both mantissas count whole spacings
        have hsplit : (e - spacing).toNat = k + (e - k - spacing).toNat := by omega
        rw [if_pos hexact, if_pos (by omega), hsplit, twoTo_add, Nat.mul_assoc]
      · by_cases hwhole : spacing ≤ e
        · -- only the shorter mantissa does, and the quotient is exact
          have hsplit : k = (e - spacing).toNat + (spacing - (e - k)).toNat := by omega
          rw [if_neg hexact, if_pos hwhole]
          conv => lhs; arg 1; rw [hsplit, twoTo_add, ← Nat.mul_assoc]
          exact divNearest_mul_self _ (twoTo_pos _)
        · have hsplit : (spacing - (e - k)).toNat = (spacing - e).toNat + k := by omega
          rw [if_neg hexact, if_neg hwhole, hsplit, twoTo_add, divNearest_mul_right _ _ hpos]
    rw [hsteps]

/-! ### Finite codes -/

/-- A number of spacings of a binade that is written as such: all but the first binade have a
leading digit, and the code is below that of infinity. -/
structure Canonical (binade steps : Nat) : Prop where
  steps_lt : steps < 2 * twoTo f.fractionBits
  leading : binade = 0 ∨ twoTo f.fractionBits ≤ steps
  finite : binade * twoTo f.fractionBits + steps < f.infinityCode

/-- A code with a sign. -/
def signed (negative : Bool) (code : Nat) : Nat := (if negative then f.signCode else 0) + code

/-- The sign stands above all bits of exponent and fraction. -/
theorem signCode_eq : f.signCode = twoTo f.exponentBits * twoTo f.fractionBits :=
  twoTo_add ..

/-- The code of infinity leaves the sign free. -/
theorem infinityCode_lt_signCode : f.infinityCode < f.signCode := by
  rw [signCode_eq, infinityCode]
  have hpos := twoTo_pos f.exponentBits
  exact Nat.mul_lt_mul_of_pos_right (by omega) (twoTo_pos _)

/-- The parts of a code with a sign. -/
theorem decode_signed (negative : Bool) {code : Nat} (h : code < f.signCode) :
    f.decode (f.signed negative code) =
      if code / twoTo f.fractionBits = twoTo f.exponentBits - 1 then
        if code % twoTo f.fractionBits = 0 then .infinite negative else .nan
      else if code / twoTo f.fractionBits = 0 then
        .finite negative (code % twoTo f.fractionBits) f.unitExponent
      else .finite negative (twoTo f.fractionBits + code % twoTo f.fractionBits)
        (f.unitExponent + (code / twoTo f.fractionBits : Nat) - 1) := by
  have hfraction := twoTo_pos f.fractionBits
  have hfield : code / twoTo f.fractionBits < twoTo f.exponentBits := by
    apply Nat.div_lt_of_lt_mul
    rwa [Nat.mul_comm, ← signCode_eq]
  have hsign : (f.signed negative code / f.signCode % 2 == 1) = negative := by
    cases negative with
    | false =>
      simp only [signed, Bool.false_eq_true, ite_false, Nat.zero_add, Nat.div_eq_of_lt h]
      rfl
    | true =>
      have hone : (f.signCode + code) / f.signCode = 1 := by
        have hpos : 0 < f.signCode := twoTo_pos _
        rw [Nat.add_div_left _ hpos, Nat.div_eq_of_lt h]
      rw [signed, if_pos rfl, hone]
      rfl
  have hplace : f.signed negative code / twoTo f.fractionBits % twoTo f.exponentBits =
      code / twoTo f.fractionBits := by
    cases negative with
    | false =>
      simp only [signed, Bool.false_eq_true, ite_false, Nat.zero_add, Nat.mod_eq_of_lt hfield]
    | true =>
      rw [signed, if_pos rfl, signCode_eq, Nat.add_comm, Nat.add_mul_div_right _ _ hfraction,
        Nat.add_mod_right, Nat.mod_eq_of_lt hfield]
  have hrest : f.signed negative code % twoTo f.fractionBits = code % twoTo f.fractionBits := by
    cases negative with
    | false => simp only [signed, Bool.false_eq_true, ite_false, Nat.zero_add]
    | true => rw [signed, if_pos rfl, signCode_eq, Nat.mul_add_mod_self_right]
  simp only [decode, shiftRight_eq_div_twoTo, hsign, hplace, hrest]

variable {f}

namespace Canonical

variable {binade steps : Nat}

/-- The code of a number of spacings stands for it. -/
theorem decode_signed (h : f.Canonical binade steps) (negative : Bool) :
    f.decode (f.signed negative (binade * twoTo f.fractionBits + steps)) =
      .finite negative steps (f.unitExponent + binade) := by
  have hlt := h.finite
  have hsteps := h.steps_lt
  rw [f.decode_signed negative (Nat.lt_trans hlt f.infinityCode_lt_signCode)]
  have hfield : (binade * twoTo f.fractionBits + steps) / twoTo f.fractionBits <
      twoTo f.exponentBits - 1 := by
    apply Nat.div_lt_of_lt_mul
    rwa [Nat.mul_comm (twoTo f.fractionBits)]
  rw [if_neg (Nat.ne_of_lt hfield)]
  by_cases hsmall : steps < twoTo f.fractionBits
  · have hzero : binade = 0 := by
      have := h.leading
      omega
    rw [hzero, Nat.zero_mul, Nat.zero_add, Nat.div_eq_of_lt hsmall, Nat.mod_eq_of_lt hsmall,
      if_pos rfl, Int.natCast_zero, Int.add_zero]
  · obtain ⟨rest, rfl⟩ : ∃ rest, steps = twoTo f.fractionBits + rest :=
      ⟨steps - twoTo f.fractionBits, by omega⟩
    have hrest : rest < twoTo f.fractionBits := by omega
    have hcode : binade * twoTo f.fractionBits + (twoTo f.fractionBits + rest) =
        (binade + 1) * twoTo f.fractionBits + rest := by
      rw [Nat.succ_mul, Nat.add_assoc]
    rw [hcode, rowMajor_div _ hrest, rowMajor_mod _ hrest, if_neg (Nat.succ_ne_zero _)]
    congr 1
    omega

/-- A number of spacings is encoded as the code that counts them. -/
theorem dyadicCode_eq (h : f.Canonical binade steps) :
    f.dyadicCode steps (f.unitExponent + binade) = binade * twoTo f.fractionBits + steps := by
  have hpos := twoTo_pos f.fractionBits
  have hleading := h.leading
  by_cases hzero : steps = 0
  · have hbinade : binade = 0 := by omega
    rw [hzero, hbinade, Nat.zero_mul]
    rfl
  · have hspacing : max ((steps.log2 : Int) + (f.unitExponent + binade) - f.fractionBits)
        f.unitExponent = f.unitExponent + binade := by
      have hupper : steps.log2 < f.fractionBits + 1 := by
        rw [Nat.log2_lt hzero]
        have hlt := h.steps_lt
        rwa [← twoTo_succ, twoTo, Nat.one_shiftLeft] at hlt
      rcases hleading with hbinade | hlow
      · omega
      · have hlog : steps.log2 = f.fractionBits :=
          log2_eq_of_twoTo_le hlow (by rw [twoTo_succ]; exact h.steps_lt)
        omega
    have hfinite := h.finite
    simp only [dyadicCode, hzero, ite_false, hspacing, Int.le_refl, ite_true, Int.sub_self,
      Int.toNat_zero, Nat.shiftLeft_zero]
    have hbinade : (f.unitExponent + (binade : Int) - f.unitExponent).toNat = binade := by omega
    rw [hbinade, Nat.min_eq_left (Nat.le_of_lt hfinite)]

end Canonical

/-- Every finite code counts spacings of a binade. -/
theorem exists_canonical {code : Nat} (h : code < f.infinityCode) : ∃ binade steps,
    f.Canonical binade steps ∧ code = binade * twoTo f.fractionBits + steps := by
  have hpos := twoTo_pos f.fractionBits
  have hrest := Nat.mod_lt code hpos
  have hcode := div_mul_add_mod code (twoTo f.fractionBits)
  cases hfield : code / twoTo f.fractionBits with
  | zero =>
    rw [hfield, Nat.zero_mul, Nat.zero_add] at hcode
    exact ⟨0, code, ⟨by omega, Or.inl rfl, by omega⟩, by omega⟩
  | succ binade =>
    rw [hfield, Nat.succ_mul] at hcode
    exact ⟨binade, twoTo f.fractionBits + code % twoTo f.fractionBits,
      ⟨by omega, Or.inr (Nat.le_add_right ..), by omega⟩, by omega⟩

/-- No magnitude has a code above that of infinity. -/
theorem dyadicCode_le (mantissa : Nat) (exponent : Int) :
    f.dyadicCode mantissa exponent ≤ f.infinityCode := by
  unfold dyadicCode
  split
  · exact Nat.zero_le _
  · exact Nat.min_le_right ..

/-- A datum that is a number has a code with a sign, up to that of infinity. -/
theorem exists_encode_eq_signed {d : Datum} (hd : d ≠ .nan) :
    ∃ negative code, code ≤ f.infinityCode ∧ f.encode d = f.signed negative code := by
  cases d with
  | nan => exact absurd rfl hd
  | infinite negative => exact ⟨negative, f.infinityCode, Nat.le_refl _, rfl⟩
  | finite negative mantissa exponent =>
    exact ⟨negative, f.dyadicCode mantissa exponent, dyadicCode_le .., rfl⟩

/-- The code of infinity with a sign is read as the infinity of that sign. -/
theorem decode_signed_infinityCode (negative : Bool) :
    f.decode (f.signed negative f.infinityCode) = .infinite negative := by
  rw [f.decode_signed negative f.infinityCode_lt_signCode, infinityCode,
    Nat.mul_div_cancel _ (twoTo_pos _), Nat.mul_mod_left, if_pos rfl, if_pos rfl]

/-- Codes above that of infinity are no numbers. -/
theorem decode_signed_eq_nan (negative : Bool) {code : Nat} (hlow : f.infinityCode < code)
    (hhigh : code < f.signCode) : f.decode (f.signed negative code) = .nan := by
  have hpos := twoTo_pos f.fractionBits
  have hcode := div_mul_add_mod code (twoTo f.fractionBits)
  have hfield : code / twoTo f.fractionBits = twoTo f.exponentBits - 1 := by
    have hbelow : code / twoTo f.fractionBits < twoTo f.exponentBits := by
      apply Nat.div_lt_of_lt_mul
      rwa [Nat.mul_comm, ← signCode_eq]
    have habove : twoTo f.exponentBits - 1 ≤ code / twoTo f.fractionBits :=
      (Nat.le_div_iff_mul_le hpos).mpr (Nat.le_of_lt hlow)
    omega
  have hfraction : code % twoTo f.fractionBits ≠ 0 := by
    intro hzero
    rw [hfield, hzero, Nat.add_zero] at hcode
    exact absurd hcode (Nat.ne_of_lt hlow)
  rw [f.decode_signed negative hhigh, if_pos hfield, if_neg hfraction]

/-- Every code of a format is a sign and a code without it. -/
theorem exists_eq_signed {code : Nat} (h : code < 2 * f.signCode) :
    ∃ negative rest, rest < f.signCode ∧ code = f.signed negative rest := by
  by_cases hsign : code < f.signCode
  · exact ⟨false, code, hsign, (Nat.zero_add code).symm⟩
  · refine ⟨true, code - f.signCode, by omega, ?_⟩
    rw [signed, if_pos rfl]
    omega

/-! ### Wider formats -/

/-- Every positive value of the narrow format is one of the wide format with a leading digit. -/
structure Embeds (narrow wide : Format) : Prop where
  fraction_le : narrow.fractionBits ≤ wide.fractionBits
  unit_le : wide.unitExponent + wide.fractionBits ≤ narrow.unitExponent
  range_le : narrow.unitExponent + twoTo narrow.exponentBits + 2 ≤
    wide.unitExponent + twoTo wide.exponentBits

namespace Embeds

variable {narrow wide : Format}

/-- A positive number of the narrow format has a canonical form in the wide one, with its mantissa
shifted so far as the exponent goes down. -/
theorem exists_canonical (h : Embeds narrow wide) {binade steps : Nat}
    (hc : narrow.Canonical binade steps) (hne : steps ≠ 0) : ∃ k wideBinade : Nat,
      wide.Canonical wideBinade (steps * twoTo k) ∧
        wide.unitExponent + wideBinade = narrow.unitExponent + binade - k := by
  have hunit := h.unit_le
  have hrange := h.range_le
  have hlog : steps.log2 < narrow.fractionBits + 1 := by
    rw [Nat.log2_lt hne]
    have hlt := hc.steps_lt
    rwa [← twoTo_succ, twoTo, Nat.one_shiftLeft] at hlt
  have hfraction := h.fraction_le
  obtain ⟨k, hk⟩ : ∃ k, k + steps.log2 = wide.fractionBits :=
    ⟨wide.fractionBits - steps.log2, by omega⟩
  have hlow : twoTo wide.fractionBits ≤ steps * twoTo k := by
    rw [← hk, Nat.add_comm, twoTo_add]
    exact Nat.mul_le_mul_right _ (twoTo_log2_le hne)
  have hhigh : steps * twoTo k < 2 * twoTo wide.fractionBits := by
    rw [← twoTo_succ, ← hk, Nat.add_assoc, Nat.add_comm, twoTo_add]
    exact Nat.mul_lt_mul_of_pos_right (lt_twoTo_log2_succ steps) (twoTo_pos k)
  obtain ⟨b, hb⟩ : ∃ b : Nat, wide.unitExponent + b = narrow.unitExponent + binade - k :=
    ⟨(narrow.unitExponent + binade - k - wide.unitExponent).toNat, by omega⟩
  have hbinade : binade < twoTo narrow.exponentBits := by
    have hpos := twoTo_pos narrow.fractionBits
    have hfinite := hc.finite
    by_contra hle
    have hmul : twoTo narrow.exponentBits * twoTo narrow.fractionBits ≤
        binade * twoTo narrow.fractionBits := Nat.mul_le_mul_right _ (Nat.le_of_not_lt hle)
    have hsign := narrow.infinityCode_lt_signCode
    rw [signCode_eq] at hsign
    omega
  refine ⟨k, b, ⟨hhigh, Or.inr hlow, ?_⟩, hb⟩
  have htop : b + 2 ≤ twoTo wide.exponentBits - 1 := by omega
  calc b * twoTo wide.fractionBits + steps * twoTo k
      < (b + 2) * twoTo wide.fractionBits := by
        rw [Nat.add_mul]
        omega
    _ ≤ wide.infinityCode := Nat.mul_le_mul_right _ htop

/-- A finite code of the narrow format is found again after a detour over the wide format. -/
theorem encode_decode_encode (h : Embeds narrow wide) (negative : Bool) {code : Nat}
    (hcode : code < narrow.infinityCode) :
    narrow.encode (wide.decode (wide.encode (narrow.decode (narrow.signed negative code)))) =
      narrow.signed negative code := by
  obtain ⟨binade, steps, hc, rfl⟩ := Format.exists_canonical hcode
  rw [hc.decode_signed]
  by_cases hne : steps = 0
  · have hbinade : binade = 0 := by
      have hpos := twoTo_pos narrow.fractionBits
      have hleading := hc.leading
      omega
    have hzero : wide.Canonical 0 0 := by
      refine ⟨Nat.mul_pos (by decide) (twoTo_pos _), Or.inl rfl, ?_⟩
      have hunit := h.unit_le
      have hrange := h.range_le
      rw [Nat.zero_mul]
      exact Nat.mul_pos (by omega) (twoTo_pos _)
    have hwide : wide.encode (.finite negative 0 (narrow.unitExponent + binade)) =
        wide.signed negative (0 * twoTo wide.fractionBits + 0) := by
      rw [Nat.zero_mul]
      rfl
    rw [hne, hwide, hzero.decode_signed, hbinade, Nat.zero_mul]
    rfl
  · obtain ⟨k, wideBinade, hw, hexponent⟩ := h.exists_canonical hc hne
    have hwide : wide.encode (.finite negative steps (narrow.unitExponent + binade)) =
        wide.signed negative (wideBinade * twoTo wide.fractionBits + steps * twoTo k) := by
      rw [encode, signed, ← hw.dyadicCode_eq, hexponent, dyadicCode_mul_twoTo]
    rw [hwide, hw.decode_signed, hexponent, encode, dyadicCode_mul_twoTo, hc.dyadicCode_eq, signed]

end Embeds

/-- Single precision holds all numbers of half precision. -/
theorem half_embeds_single : Embeds half single := ⟨by decide, by decide, by decide⟩

end Format

end RoutedExperts
