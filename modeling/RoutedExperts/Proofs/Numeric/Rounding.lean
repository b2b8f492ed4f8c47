import Mathlib
import RoutedExperts.Proofs.Numeric.Value

/-!
# Rounding to the nearest value

`Format.Nearest` says what rounding a positive rational number to a format has to achieve: it picks
a spacing from the size of the number and then the nearest number of spacings, the even one of two.
From that alone follow the size of the error and that values of the format are bounds kept by
rounding (`Format.Rounds.le_of_le`, `Format.Rounds.le_of_ge`), so rounding is exact where it can be.
The codec rounds in this sense (`Format.nearest_dyadicCode`).
-/

namespace RoutedExperts

/-! ### Whole numbers -/

/-- The whole number nearest to a rational number, the even one of two. -/
structure IsRounded (y : ℚ) (n : Nat) : Prop where
  error : |n - y| ≤ 1 / 2
  even : |n - y| = 1 / 2 → n % 2 = 0

namespace IsRounded

/-- The one integer nearer than a half is the rounded number. -/
theorem of_lt {y : ℚ} {n : Nat} (h : |n - y| < 1 / 2) : IsRounded y n :=
  ⟨h.le, fun htie => absurd htie h.ne⟩

theorem natCast (n : Nat) : IsRounded n n := by
  apply of_lt
  rw [sub_self, abs_zero]
  exact one_half_pos

/-- A tie goes to the even neighbour. -/
theorem tie (q : Nat) : IsRounded (q + 1 / 2) (q + q % 2) := by
  refine ⟨?_, fun _ => by omega⟩
  rcases Nat.mod_two_eq_zero_or_one q with hq | hq
  · rw [hq, Nat.add_zero, abs_le]
    constructor <;> linarith
  · rw [hq, Nat.cast_add_one, abs_le]
    constructor <;> linarith

end IsRounded

/-- The rounded quotient is the quotient rounded. -/
theorem isRounded_divNearest (n : Nat) {d : Nat} (hd : 0 < d) :
    IsRounded (n / d) (divNearest n d) := by
  have hpos : (0 : ℚ) < d := Nat.cast_pos.mpr hd
  have hquotient : (n : ℚ) / d = (n / d : ℕ) + ((n % d : ℕ) : ℚ) / d := by
    rw [div_eq_iff hpos.ne', add_mul, div_mul_cancel₀ _ hpos.ne']
    exact_mod_cast (div_mul_add_mod n d).symm
  rw [hquotient, divNearest]
  generalize n / d = q
  have hrest : n % d < d := Nat.mod_lt n hd
  generalize n % d = r at hrest
  have hnonneg : (0 : ℚ) ≤ r / d := by positivity
  split_ifs with hlow hhigh
  · have hless : (r : ℚ) / d < 1 / 2 := by
      rw [div_lt_div_iff₀ hpos two_pos]
      exact_mod_cast (by omega : r * 2 < 1 * d)
    exact .of_lt (abs_lt.mpr ⟨by linarith, by linarith⟩)
  · have hmore : 1 / 2 < (r : ℚ) / d := by
      rw [div_lt_div_iff₀ two_pos hpos]
      exact_mod_cast (by omega : 1 * d < r * 2)
    have hone : (r : ℚ) / d < 1 := (div_lt_one hpos).mpr (Nat.cast_lt.mpr hrest)
    apply IsRounded.of_lt
    rw [Nat.cast_add_one]
    exact abs_lt.mpr ⟨by linarith, by linarith⟩
  · have hhalf : (r : ℚ) / d = 1 / 2 := by
      rw [div_eq_div_iff hpos.ne' two_ne_zero]
      exact_mod_cast (by omega : r * 2 = 1 * d)
    rw [hhalf]
    exact .tie q

theorem cast_shiftLeft (m k : Nat) : ((m <<< k : Nat) : ℚ) = m * 2 ^ k := by
  rw [Nat.shiftLeft_eq, Nat.cast_mul, Nat.cast_pow, Nat.cast_ofNat]

/-- The number of spacings of `2 ^ spacing` that is nearest to `m * 2 ^ e`. -/
def nearestSteps (m : Nat) (e spacing : Int) : Nat :=
  if spacing ≤ e then m <<< (e - spacing).toNat else divNearest m (1 <<< (spacing - e).toNat)

/-- The nearest number of steps is the exact number of steps rounded. -/
theorem isRounded_nearestSteps (m : Nat) (e spacing : Int) :
    IsRounded (m * 2 ^ e / 2 ^ spacing) (nearestSteps m e spacing) := by
  rw [nearestSteps, mul_div_assoc, ← zpow_sub₀ two_ne_zero]
  split_ifs with hexact
  · obtain ⟨k, hk⟩ : ∃ k : Nat, e - spacing = k := ⟨(e - spacing).toNat, by omega⟩
    rw [hk, zpow_natCast, Int.toNat_natCast, ← cast_shiftLeft]
    exact .natCast _
  · obtain ⟨k, hk⟩ : ∃ k : Nat, spacing - e = k := ⟨(spacing - e).toNat, by omega⟩
    have hdivide : (m : ℚ) * 2 ^ (e - spacing) = m / (twoTo k : ℕ) := by
      rw [← neg_sub, hk, zpow_neg, zpow_natCast, cast_twoTo, div_eq_mul_inv]
    rw [hk, hdivide, Int.toNat_natCast]
    exact isRounded_divNearest m (twoTo_pos k)

/-! ### Numbers of a format -/

namespace Format

variable {f : Format} {t z : ℚ}

/-- `n` spacings of `2 ^ e` are nearest to `t` among the numbers of the format. -/
structure Nearest (f : Format) (t : ℚ) (n : Nat) (e : Int) : Prop where
  unit_le : f.unitExponent ≤ e
  lead : e = f.unitExponent ∨ 2 ^ (f.fractionBits + e) ≤ t
  top : t < 2 ^ (f.fractionBits + 1 + e)
  rounded : IsRounded (t / 2 ^ e) n

/-- `z` is what `t` is rounded to. -/
def Rounds (f : Format) (t z : ℚ) : Prop := ∃ n e, f.Nearest t n e ∧ z = n * 2 ^ e

/-- Zero is nearest to zero, at the least exponent. -/
theorem Nearest.zero : f.Nearest 0 0 f.unitExponent := by
  refine ⟨le_rfl, .inl rfl, by positivity, ?_⟩
  rw [zero_div]
  exact_mod_cast IsRounded.natCast 0

/-- A nearest number is off by at most half a step. -/
theorem Nearest.error {n : Nat} {e : Int} (h : f.Nearest t n e) : |n * 2 ^ e - t| ≤ 2 ^ e / 2 := by
  have hpos : (0 : ℚ) < 2 ^ e := by positivity
  have hscale : (n : ℚ) * 2 ^ e - t = (n - t / 2 ^ e) * 2 ^ e := by field_simp
  calc |(n : ℚ) * 2 ^ e - t| = |n - t / 2 ^ e| * 2 ^ e := by
        rw [hscale, abs_mul, abs_of_pos hpos]
    _ ≤ 1 / 2 * 2 ^ e := mul_le_mul_of_nonneg_right h.rounded.error hpos.le
    _ = 2 ^ e / 2 := by ring

/-! ### Bounds kept by rounding -/

/-- Multiples of one number that are less than that number apart are equal. -/
theorem le_of_mul_le_mul_add {a b : Int} {u : ℚ} (hu : 0 < u) (h : a * u ≤ b * u + u / 2) :
    a ≤ b := by
  by_contra hlt
  have hstep : (b : ℚ) + 1 ≤ a := by exact_mod_cast Int.add_one_le_of_lt (not_le.mp hlt)
  have hmul := mul_le_mul_of_nonneg_right hstep hu.le
  linarith

/-- A number of spacings is a number of smaller spacings. -/
theorem exists_mul_zpow_eq (k : Nat) {e g : Int} (h : e ≤ g) :
    ∃ c : Int, (k : ℚ) * 2 ^ g = c * 2 ^ e := by
  obtain ⟨d, rfl⟩ : ∃ d : Nat, g = e + d := ⟨(g - e).toNat, by omega⟩
  refine ⟨k * 2 ^ d, ?_⟩
  rw [zpow_add₀ two_ne_zero, zpow_natCast]
  push_cast
  ring

namespace Rounds

/-- A rounded magnitude is not negative. -/
theorem nonneg (h : f.Rounds t z) : 0 ≤ z := by
  obtain ⟨n, e, -, rfl⟩ := h
  positivity

theorem zero : f.Rounds 0 0 := ⟨0, f.unitExponent, .zero, by rw [Nat.cast_zero, zero_mul]⟩

/-- The error is half of the last digit, or half of the least positive value. -/
theorem abs_sub_le (h : f.Rounds t z) (ht : 0 ≤ t) :
    |z - t| ≤ t / 2 ^ (f.fractionBits + 1) + 2 ^ f.unitExponent / 2 := by
  obtain ⟨n, e, hn, rfl⟩ := h
  refine hn.error.trans ?_
  have hpow : (0 : ℚ) < 2 ^ (f.fractionBits + 1) := by positivity
  have hunit : (0 : ℚ) < 2 ^ f.unitExponent := by positivity
  rcases hn.lead with rfl | hlead
  · linarith [div_nonneg ht hpow.le]
  · have hhalf : (2 : ℚ) ^ e / 2 = 2 ^ (f.fractionBits + e) / 2 ^ (f.fractionBits + 1) := by
      rw [zpow_add₀ two_ne_zero, zpow_natCast, pow_succ]
      field_simp
    rw [hhalf]
    linarith [div_le_div_of_nonneg_right hlead hpow.le]

variable {k : Nat} {g : Int}

/-- A value of the format is below what numbers above it are rounded to. -/
theorem le_of_le (h : f.Rounds t z) (hk : k < 2 ^ (f.fractionBits + 1)) (hg : f.unitExponent ≤ g)
    (hle : k * 2 ^ g ≤ t) : k * 2 ^ g ≤ z := by
  obtain ⟨n, e, hn, rfl⟩ := h
  have hpos : (0 : ℚ) < 2 ^ e := by positivity
  have herror := (abs_le.mp hn.error).1
  -- a lower bound in the spacings of `t`
  obtain ⟨c, hc, hct⟩ : ∃ c : Int, (k : ℚ) * 2 ^ g ≤ c * 2 ^ e ∧ (c : ℚ) * 2 ^ e ≤ t := by
    rcases le_or_gt e g with heg | hge
    · obtain ⟨c, hc⟩ := exists_mul_zpow_eq k heg
      exact ⟨c, hc.le, hc ▸ hle⟩
    · have hlead := hn.lead.resolve_left (by omega)
      refine ⟨2 ^ f.fractionBits, ?_, ?_⟩
      · calc (k : ℚ) * 2 ^ g ≤ 2 ^ (f.fractionBits + 1) * 2 ^ g := by
              gcongr
              exact_mod_cast hk.le
          _ = 2 ^ f.fractionBits * 2 ^ (g + 1) := by rw [zpow_add_one₀ two_ne_zero]; ring
          _ ≤ ((2 ^ f.fractionBits : ℤ) : ℚ) * 2 ^ e := by
              push_cast
              gcongr
              · exact one_le_two
              · omega
      · rw [zpow_add₀ two_ne_zero, zpow_natCast] at hlead
        push_cast
        exact hlead
  have hcn : c ≤ n := le_of_mul_le_mul_add hpos (by push_cast; linarith)
  calc (k : ℚ) * 2 ^ g ≤ c * 2 ^ e := hc
    _ ≤ n * 2 ^ e := by
      gcongr
      exact_mod_cast hcn

/-- A value of the format is above what numbers below it are rounded to. -/
theorem le_of_ge (h : f.Rounds t z) (hk : k < 2 ^ (f.fractionBits + 1)) (hg : f.unitExponent ≤ g)
    (hle : t ≤ k * 2 ^ g) : z ≤ k * 2 ^ g := by
  obtain ⟨n, e, hn, rfl⟩ := h
  have hpos : (0 : ℚ) < 2 ^ e := by positivity
  have herror := (abs_le.mp hn.error).2
  have heg : e ≤ g := by
    by_contra hge
    have hlead := hn.lead.resolve_left (by omega)
    have hlt : t < t := calc
      t ≤ k * 2 ^ g := hle
      _ < 2 ^ (f.fractionBits + 1) * 2 ^ g := by
        gcongr
        exact_mod_cast hk
      _ = 2 ^ (f.fractionBits + 1 + g) := by
        rw [zpow_add₀ two_ne_zero]
        norm_cast
      _ ≤ 2 ^ (f.fractionBits + e) := zpow_le_zpow_right₀ one_le_two (by omega)
      _ ≤ t := hlead
    exact lt_irrefl t hlt
  obtain ⟨c, hc⟩ := exists_mul_zpow_eq k heg
  rw [hc] at hle ⊢
  have hnc : (n : Int) ≤ c := le_of_mul_le_mul_add hpos (by push_cast; linarith)
  gcongr
  exact_mod_cast hnc

/-- A value of the format is kept. -/
theorem eq_of_eq (h : f.Rounds t z) (hk : k < 2 ^ (f.fractionBits + 1)) (hg : f.unitExponent ≤ g)
    (ht : t = k * 2 ^ g) : z = t := by
  rw [ht]
  exact le_antisymm (h.le_of_ge hk hg ht.le) (h.le_of_le hk hg ht.ge)

/-- Zero rounds to nothing else. -/
theorem eq_zero (h : f.Rounds 0 z) : z = 0 := by
  have hle := h.le_of_ge (k := 0) (by positivity) le_rfl (by rw [Nat.cast_zero, zero_mul])
  rw [Nat.cast_zero, zero_mul] at hle
  exact le_antisymm hle h.nonneg

end Rounds

/-! ### Rounded codes -/

/-- The leading digit of the whole part of a number tells its spacing. -/
theorem Nearest.of_log2 {m n : Nat} {e spacing : Int} (hm : m ≠ 0 ∨ spacing = f.unitExponent)
    (hle : m * 2 ^ e ≤ t) (hlt : t < (m + 1) * 2 ^ e)
    (hspacing : max ((m.log2 : Int) + e - f.fractionBits) f.unitExponent = spacing)
    (hrounded : IsRounded (t / 2 ^ spacing) n) : f.Nearest t n spacing := by
  refine ⟨by omega, ?_, ?_, hrounded⟩
  · by_cases hunit : spacing = f.unitExponent
    · exact .inl hunit
    · right
      calc (2 : ℚ) ^ (f.fractionBits + spacing) = 2 ^ ((m.log2 : ℤ) + e) := by congr 1; omega
        _ = (twoTo m.log2 : ℕ) * 2 ^ e := by
          rw [zpow_add₀ two_ne_zero, zpow_natCast, cast_twoTo]
        _ ≤ m * 2 ^ e := by
          gcongr
          exact twoTo_log2_le (hm.resolve_right hunit)
        _ ≤ t := hle
  · calc t < (m + 1) * 2 ^ e := hlt
      _ ≤ (twoTo (m.log2 + 1) : ℕ) * 2 ^ e := by
        gcongr
        exact_mod_cast lt_twoTo_log2_succ m
      _ = 2 ^ (((m.log2 + 1 : ℕ) : ℤ) + e) := by
        rw [zpow_add₀ two_ne_zero, zpow_natCast, cast_twoTo]
      _ ≤ 2 ^ (f.fractionBits + 1 + spacing) := zpow_le_zpow_right₀ one_le_two (by omega)

/-- The code of a datum counts the nearest number of spacings. -/
theorem nearest_dyadicCode (f : Format) (m : Nat) (e : Int) : ∃ n spacing,
    f.Nearest (m * 2 ^ e) n spacing ∧ f.dyadicCode m e =
      min ((spacing - f.unitExponent).toNat * twoTo f.fractionBits + n) f.infinityCode := by
  by_cases hm : m = 0
  · refine ⟨0, f.unitExponent, ?_, ?_⟩
    · rw [hm, Nat.cast_zero, zero_mul]
      exact .zero
    · rw [dyadicCode, if_pos hm, Int.sub_self, Int.toNat_zero, Nat.zero_mul, Nat.zero_min]
  · obtain ⟨spacing, hspacing⟩ : ∃ spacing,
        max ((m.log2 : Int) + e - f.fractionBits) f.unitExponent = spacing := ⟨_, rfl⟩
    refine ⟨nearestSteps m e spacing, spacing, ?_, ?_⟩
    · have hlt : (m * 2 ^ e : ℚ) < (m + 1) * 2 ^ e := by
        gcongr
        exact lt_add_one _
      exact .of_log2 (.inl hm) le_rfl hlt hspacing (isRounded_nearestSteps m e spacing)
    · rw [dyadicCode, if_neg hm, hspacing]
      rfl

namespace Nearest

variable {n : Nat} {e : Int}

/-- A nearest number has no more steps than a binade ends at. -/
theorem steps_le (h : f.Nearest t n e) : n ≤ 2 * twoTo f.fractionBits := by
  have hpos : (0 : ℚ) < 2 ^ e := by positivity
  have htop := h.top
  have herror := (abs_le.mp h.error).2
  rw [zpow_add₀ two_ne_zero, ← Nat.cast_add_one, zpow_natCast] at htop
  have hle : (n : Int) ≤ 2 ^ (f.fractionBits + 1) :=
    le_of_mul_le_mul_add hpos (by push_cast; linarith)
  rw [← twoTo_succ, twoTo, Nat.one_shiftLeft]
  exact_mod_cast hle

/-- Above the least exponent a nearest number has the steps that a binade starts with. -/
theorem le_steps (h : f.Nearest t n e) (he : e ≠ f.unitExponent) : twoTo f.fractionBits ≤ n := by
  have hpos : (0 : ℚ) < 2 ^ e := by positivity
  have hlead := h.lead.resolve_left he
  have herror := (abs_le.mp h.error).1
  rw [zpow_add₀ two_ne_zero, zpow_natCast] at hlead
  have hle : (2 ^ f.fractionBits : Int) ≤ n :=
    le_of_mul_le_mul_add hpos (by push_cast; linarith)
  rw [twoTo, Nat.one_shiftLeft]
  exact_mod_cast hle

/-- A carry out of the fraction is the first number of the next binade. -/
theorem exists_canonical (h : f.Nearest t n e)
    (hcode : (e - f.unitExponent).toNat * twoTo f.fractionBits + n < f.infinityCode) :
    ∃ binade m, f.Canonical binade m ∧
      (e - f.unitExponent).toNat * twoTo f.fractionBits + n = binade * twoTo f.fractionBits + m ∧
      (n * 2 ^ e : ℚ) = m * 2 ^ (f.unitExponent + binade) := by
  have hunit := h.unit_le
  obtain ⟨binade, hbinade⟩ : ∃ binade : Nat, e = f.unitExponent + binade :=
    ⟨(e - f.unitExponent).toNat, by omega⟩
  have hlead : binade = 0 ∨ twoTo f.fractionBits ≤ n := by
    by_cases he : e = f.unitExponent
    · exact .inl (by omega)
    · exact .inr (h.le_steps he)
  have htoNat : (e - f.unitExponent).toNat = binade := by omega
  rw [htoNat] at hcode ⊢
  rcases Nat.lt_or_eq_of_le h.steps_le with hlt | hcarry
  · exact ⟨binade, n, ⟨hlt, hlead, hcode⟩, rfl, by rw [hbinade]⟩
  · have hsame : (binade + 1) * twoTo f.fractionBits + twoTo f.fractionBits =
        binade * twoTo f.fractionBits + n := by
      rw [hcarry]
      ring
    refine ⟨binade + 1, twoTo f.fractionBits, ⟨?_, .inr le_rfl, hsame ▸ hcode⟩, hsame.symm, ?_⟩
    · have := twoTo_pos f.fractionBits
      omega
    · have hnext : f.unitExponent + ((binade + 1 : ℕ) : ℤ) = f.unitExponent + binade + 1 := by omega
      rw [hcarry, hbinade, hnext, zpow_add_one₀ two_ne_zero]
      push_cast
      ring

end Nearest

/-! ### Data written and read back -/

variable {m : Nat} {e : Int}

/-- A datum below infinity is read back as what it is rounded to. -/
theorem decode_encode_finite (negative : Bool) (h : f.dyadicCode m e < f.infinityCode) :
    ∃ binade m', f.Canonical binade m' ∧
      f.decode (f.encode (.finite negative m e)) = .finite negative m' (f.unitExponent + binade) ∧
      f.Rounds (m * 2 ^ e) (m' * 2 ^ (f.unitExponent + (binade : ℤ))) := by
  obtain ⟨n, spacing, hn, hcode⟩ := f.nearest_dyadicCode m e
  have hlt : (spacing - f.unitExponent).toNat * twoTo f.fractionBits + n < f.infinityCode := by
    omega
  obtain ⟨binade, m', hc, hsame, hvalue⟩ := hn.exists_canonical hlt
  refine ⟨binade, m', hc, ?_, n, spacing, hn, hvalue.symm⟩
  rw [← hc.decode_signed negative, ← hsame, encode, signed, hcode, Nat.min_eq_left hlt.le]

/-- A magnitude whose code is too large is written and read back as an infinity of its sign. -/
theorem decode_encode_infinite (negative : Bool) (h : f.infinityCode ≤ f.dyadicCode m e) :
    f.decode (f.encode (.finite negative m e)) = .infinite negative := by
  rw [← decode_signed_infinityCode negative, encode, signed,
    Nat.le_antisymm (dyadicCode_le m e) h]

/-- Numbers from halfway beyond the largest half-precision number on are infinite there: the tie
goes up, as the code of the largest number is odd. -/
theorem Nearest.half_code_lt_iff {n : Nat} (h : half.Nearest t n e) :
    (e - half.unitExponent).toNat * twoTo half.fractionBits + n < half.infinityCode ↔
      t < 65520 := by
  have hinfinity : half.infinityCode = 31744 := rfl
  have hbits : twoTo half.fractionBits = 1024 := rfl
  have hunit : half.unitExponent = -24 := rfl
  have hfraction : (half.fractionBits : Int) = 10 := rfl
  have hupper := h.steps_le
  have hlower := h.le_steps
  have hlow := h.unit_le
  have hlead := h.lead
  have htop := h.top
  rw [hunit, hbits, hinfinity]
  rw [hbits] at hupper hlower
  rw [hunit] at hlower hlead hlow
  rw [hfraction] at hlead htop
  rcases lt_trichotomy e 5 with hsmall | rfl | hlarge
  · -- below the last binade nothing is infinite
    refine iff_of_true (by omega) ?_
    calc t < 2 ^ (10 + 1 + e) := htop
      _ ≤ 2 ^ (15 : ℤ) := zpow_le_zpow_right₀ one_le_two (by omega)
      _ < 65520 := by norm_num
  · have hiff : (5 - -24 : ℤ).toNat * 1024 + n < 31744 ↔ n < 2048 := by omega
    obtain ⟨herrorLow, herrorHigh⟩ := abs_le.mp h.error
    rw [hiff]
    norm_num at herrorLow herrorHigh
    constructor
    · intro hlt
      have hn : (n : ℚ) ≤ 2047 := by exact_mod_cast Nat.le_of_lt_succ hlt
      refine lt_of_le_of_ne (by linarith) fun htie => ?_
      -- a tie at the largest number would leave an odd code
      have hle : (2047 : ℚ) ≤ n := by linarith
      have hodd : n = 2047 := le_antisymm (Nat.le_of_lt_succ hlt) (by exact_mod_cast hle)
      have heven := h.rounded.even
      rw [hodd, htie] at heven
      norm_num at heven
    · intro hlt
      have hn : (n : ℚ) < 2048 := by linarith
      exact_mod_cast hn
  · refine iff_of_false (by omega) (not_lt.mpr ?_)
    calc (65520 : ℚ) ≤ 2 ^ (16 : ℤ) := by norm_num
      _ ≤ 2 ^ (10 + e) := zpow_le_zpow_right₀ one_le_two (by omega)
      _ ≤ t := hlead.resolve_left (by omega)

/-- Half precision holds what is below the midpoint behind its largest number. -/
theorem half_dyadicCode_lt_iff :
    half.dyadicCode m e < half.infinityCode ↔ (m * 2 ^ e : ℚ) < 65520 := by
  obtain ⟨n, spacing, hn, hcode⟩ := half.nearest_dyadicCode m e
  rw [← hn.half_code_lt_iff, hcode, min_lt_iff, or_iff_left (lt_irrefl _)]

/-- Numbers below `2 ^ 127` stay finite in single precision. -/
theorem Nearest.single_code_lt {n : Nat} (h : single.Nearest t n e) (ht : t < 2 ^ (127 : ℤ)) :
    (e - single.unitExponent).toNat * twoTo single.fractionBits + n < single.infinityCode := by
  have hbits : twoTo single.fractionBits = 8388608 := rfl
  have hunit : single.unitExponent = -149 := rfl
  have hinfinity : single.infinityCode = 2139095040 := rfl
  have hupper := h.steps_le
  have hspacing : e < 104 := by
    rcases h.lead with he | hlead
    · omega
    · have hlt := (zpow_lt_zpow_iff_right₀ one_lt_two).mp (hlead.trans_lt ht)
      have hfraction : (single.fractionBits : Int) = 23 := rfl
      omega
  rw [hbits] at hupper ⊢
  omega

end Format

namespace Single

variable {m : Nat} {e : Int}

/-- A datum of at most twenty-four digits is written without loss. -/
theorem value_ofDatum (negative : Bool) (hm : m < 2 ^ 24) (he : -149 ≤ e)
    (ht : (m * 2 ^ e : ℚ) < 2 ^ (127 : ℤ)) :
    (ofDatum (.finite negative m e)).isFinite = true ∧
      value (ofDatum (.finite negative m e)) = signedValue negative (m * 2 ^ e) := by
  have hcode : Format.single.dyadicCode m e < Format.single.infinityCode := by
    obtain ⟨n, spacing, hn, hcode⟩ := Format.single.nearest_dyadicCode m e
    have hlt := hn.single_code_lt ht
    omega
  have hne : Datum.finite negative m e ≠ .nan := by simp
  have hdatum := datum_ofDatum hne
  obtain ⟨binade, m', -, hread, hrounds⟩ := Format.decode_encode_finite negative hcode
  rw [hread] at hdatum
  refine ⟨isFinite_iff_datum.mpr ⟨_, _, _, hdatum⟩, ?_⟩
  rw [value_of_datum hdatum, hrounds.eq_of_eq hm he rfl]

end Single

namespace Half

variable {x : Float32}

/-- What is written for a number is read back. -/
theorem datum_ofDatum {d : Datum} (hd : d ≠ .nan) :
    (ofDatum d).datum = Format.half.decode (Format.half.encode d) := by
  obtain ⟨negative, code, hcode, hencode⟩ := Format.half.exists_encode_eq_signed hd
  have hlt : Format.half.encode d < 65536 := by
    have hinfinity : Format.half.infinityCode = 31744 := rfl
    have hsign : Format.half.signCode = 32768 := rfl
    rw [hencode, Format.signed, hsign]
    split_ifs <;> omega
  rw [datum, ofDatum, Nat.toUInt16_eq, UInt16.toNat_ofNat_of_lt' hlt]

/-- A finite number narrowed to half precision is its datum written and read back there. -/
theorem datum_ofSingle {negative : Bool} {m : Nat} {e : Int}
    (h : Single.datum x = .finite negative m e) :
    (ofSingle x).datum = Format.half.decode (Format.half.encode (.finite negative m e)) := by
  rw [ofSingle, h]
  exact datum_ofDatum (by simp)

/-- The numbers of half precision stay below `2 ^ 18`. -/
theorem magnitude_lt {binade m : Nat} (hc : Format.half.Canonical binade m) :
    (m * 2 ^ (-24 + (binade : ℤ)) : ℚ) < 2 ^ (18 : ℤ) := by
  have hm : (m : ℚ) < 2 ^ (11 : ℤ) := by exact_mod_cast hc.steps_lt
  have hbinade : binade ≤ 31 := by
    have hfinite : binade * 1024 + m < 31744 := hc.finite
    omega
  calc (m * 2 ^ (-24 + (binade : ℤ)) : ℚ) < 2 ^ (11 : ℤ) * 2 ^ (-24 + (binade : ℤ)) := by gcongr
    _ ≤ 2 ^ (11 : ℤ) * 2 ^ (7 : ℤ) := by
      gcongr
      · exact one_le_two
      · omega
    _ = 2 ^ (18 : ℤ) := by rw [← zpow_add₀ two_ne_zero]; rfl

/-- Widening is exact. -/
theorem value_toSingle {h : Half} {negative : Bool} {binade m : Nat}
    (hc : Format.half.Canonical binade m)
    (hdatum : h.datum = .finite negative m (-24 + (binade : Int))) :
    h.toSingle.isFinite = true ∧
      Single.value h.toSingle = signedValue negative (m * 2 ^ (-24 + (binade : ℤ))) := by
  have hm : m < 2 ^ 11 := hc.steps_lt
  rw [toSingle, hdatum]
  exact Single.value_ofDatum negative (by omega) (by omega)
    ((magnitude_lt hc).trans (zpow_lt_zpow_right₀ one_lt_two (by decide)))

/-- A number that is not too large is rounded to a number of half precision. -/
theorem value_toSingle_ofSingle (hx : x.isFinite = true) (hle : 0 ≤ Single.value x)
    (hlt : Single.value x < 65520) :
    (ofSingle x).toSingle.isFinite = true ∧ ∃ binade m : Nat, Format.half.Canonical binade m ∧
      Single.value (ofSingle x).toSingle = m * 2 ^ (-24 + (binade : ℤ)) ∧
      Format.half.Rounds (Single.value x) (m * 2 ^ (-24 + (binade : ℤ))) := by
  obtain ⟨negative, k, e, hdatum⟩ := Single.isFinite_iff_datum.mp hx
  have hpos : (0 : ℚ) ≤ k * 2 ^ e := by positivity
  have hvalue : Single.value x = k * 2 ^ e := by
    rw [← abs_of_nonneg hle, Single.value_of_datum hdatum, abs_signedValue, abs_of_nonneg hpos]
  rw [hvalue] at hlt ⊢
  obtain ⟨binade, m, hc, hread, hrounds⟩ :=
    Format.decode_encode_finite negative (Format.half_dyadicCode_lt_iff.mpr hlt)
  obtain ⟨hfinite, hwide⟩ := value_toSingle hc ((datum_ofSingle hdatum).trans hread)
  refine ⟨hfinite, binade, m, hc, ?_, hrounds⟩
  rw [hwide]
  cases negative with
  | false => rfl
  | true =>
    -- only a zero may have a sign here
    have hzero : (k * 2 ^ e : ℚ) = 0 := by
      rw [Single.value_of_datum hdatum, signedValue, if_pos rfl] at hle
      linarith
    rw [hzero] at hrounds
    exact (congrArg _ hrounds.eq_zero).trans ((signedValue_zero true).trans hrounds.eq_zero.symm)

/-- A large number is infinite in half precision. -/
theorem datum_toSingle_ofSingle (hx : x.isFinite = true) (hle : 65520 ≤ Single.value x) :
    Single.datum (ofSingle x).toSingle = .infinite false := by
  obtain ⟨negative, k, e, hdatum⟩ := Single.isFinite_iff_datum.mp hx
  have hpos : (0 : ℚ) ≤ k * 2 ^ e := by positivity
  rw [Single.value_of_datum hdatum] at hle
  cases negative with
  | true =>
    rw [signedValue, if_pos rfl] at hle
    linarith
  | false =>
    rw [signedValue, if_neg Bool.false_ne_true] at hle
    have hcode := (not_congr Format.half_dyadicCode_lt_iff).mpr (not_lt.mpr hle)
    have hhalf : (ofSingle x).datum = .infinite false :=
      (datum_ofSingle hdatum).trans (Format.decode_encode_infinite false (not_lt.mp hcode))
    have hne : Datum.infinite false ≠ .nan := by simp
    rw [toSingle, hhalf, Single.datum_ofDatum hne]
    exact Format.decode_signed_infinityCode false

end Half

end RoutedExperts
