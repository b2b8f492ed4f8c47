import Mathlib
import RoutedExperts.Proofs.Numeric.Arithmetic
import RoutedExperts.Proofs.Quantization.QuantizedMatrix

/-!
# The scale of a group

Of finite weights, `Quantizer.extremes` are the least and the largest (`Quantizer.spans_extremes`).
Each is divided by the end of the step range on its side, and the larger quotient is rounded to half
precision. This rounding is what limits the scale: from `65520` on it is infinite
(`Quantizer.isFinite_groupScale_iff`), and only scales that are some steps above the least positive
number reach all weights of their group (`Quantizer.reaches_of_le_groupScale`).
-/

namespace RoutedExperts

/-! ### Single precision -/

namespace Single

variable {x y : Float32}

/-- The lesser of two finite numbers is finite and has the lesser value. -/
theorem value_lesser (hx : x.isFinite = true) (hy : y.isFinite = true) :
    (lesser x y).isFinite = true ∧ value (lesser x y) = min (value x) (value y) := by
  simp only [lesser, isNaN_of_isFinite hx, isNaN_of_isFinite hy, Bool.false_eq_true, ite_false]
  split_ifs with hlt
  · exact ⟨hy, (min_eq_right ((lt_iff_value_lt hy hx).mp hlt).le).symm⟩
  · exact ⟨hx, (min_eq_left (not_lt.mp (mt (lt_iff_value_lt hy hx).mpr hlt))).symm⟩

/-- The greater of two finite numbers is finite and has the greater value. -/
theorem value_greater (hx : x.isFinite = true) (hy : y.isFinite = true) :
    (greater x y).isFinite = true ∧ value (greater x y) = max (value x) (value y) := by
  simp only [greater, isNaN_of_isFinite hx, isNaN_of_isFinite hy, Bool.false_eq_true, ite_false]
  split_ifs with hlt
  · exact ⟨hy, (max_eq_right ((lt_iff_value_lt hx hy).mp hlt).le).symm⟩
  · exact ⟨hx, (max_eq_left (not_lt.mp (mt (lt_iff_value_lt hx hy).mpr hlt))).symm⟩

/-- An integer of 24 bits is not rounded. -/
theorem value_ofInt {z : Int} (hz : z.natAbs < 2 ^ 24) :
    (ofInt z).isFinite = true ∧ value (ofInt z) = z := by
  have hsmall : ((z.natAbs : ℕ) * 2 ^ (0 : ℤ) : ℚ) < 2 ^ (127 : ℤ) := by
    rw [zpow_zero, mul_one]
    calc ((z.natAbs : ℕ) : ℚ) < (2 ^ 24 : ℕ) := Nat.cast_lt.mpr hz
      _ ≤ 2 ^ (127 : ℤ) := by norm_num
  obtain ⟨hfinite, hvalue⟩ := value_ofDatum (decide (z < 0)) hz (by decide) hsmall
  refine ⟨hfinite, hvalue.trans ?_⟩
  rw [zpow_zero, mul_one, signedValue, Nat.cast_natAbs, Int.cast_abs]
  split_ifs with hsign
  · rw [abs_of_neg (Int.cast_lt_zero.mpr (of_decide_eq_true hsign)), neg_neg]
  · exact abs_of_nonneg (Int.cast_nonneg (not_lt.mp (mt decide_eq_true hsign)))

theorem isFinite_largest : largest.isFinite = true :=
  isFinite_iff_datum.mpr ⟨_, _, _, datum_largest⟩

theorem isFinite_neg_largest : (-largest).isFinite = true :=
  isFinite_iff_datum.mpr ⟨_, _, _, datum_neg_largest⟩

/-- The largest number has 24 bits set at the highest exponent. -/
theorem value_largest : value largest = 16777215 * 2 ^ (104 : ℤ) := by
  rw [value_of_datum datum_largest, signedValue, if_neg Bool.false_ne_true, Nat.cast_ofNat]

/-- The value of the largest number changes its sign with it. -/
theorem value_neg_largest : value (-largest) = -value largest := by
  rw [value_largest, value_of_datum datum_neg_largest, signedValue, if_pos rfl, Nat.cast_ofNat]

/-- A magnitude divided by a small integer is rounded once. -/
theorem value_abs_div (hx : x.isFinite = true) {d : Int} (hlow : 2 ≤ d) (hhigh : d ≤ 128) :
    (x.abs / ofInt d).isFinite = true ∧
      Format.single.Rounds (|value x| / d) (value (x.abs / ofInt d)) := by
  obtain ⟨hd, hvalue⟩ := value_ofInt (by omega : d.natAbs < 2 ^ 24)
  have htwo : (2 : ℚ) ≤ d := by exact_mod_cast hlow
  have hnonneg : 0 ≤ |value x| / (d : ℚ) := by positivity
  have hsmall : |value x.abs / value (ofInt d)| < 2 ^ (127 : ℤ) := by
    rw [value_abs hx, hvalue, abs_of_nonneg hnonneg]
    calc |value x| / (d : ℚ) ≤ |value x| / 2 := by gcongr
      _ ≤ 16777215 * 2 ^ (104 : ℤ) / 2 := by
        gcongr
        exact abs_value_le_largest hx
      _ < 2 ^ (127 : ℤ) := by norm_num
  obtain ⟨hfinite, hrounds⟩ := value_div ((isFinite_abs x).trans hx) hd
    (by rw [hvalue]; linarith) hsmall
  rw [value_abs hx, hvalue] at hrounds
  exact ⟨hfinite, hrounds.rounds hnonneg⟩

end Single

namespace Quantizer

open Single (value)

/-! ### Extremes -/

/-- The two numbers are the least and the largest weight, or still those that the search starts
with. -/
structure Spans (weight : Nat → Float32) (count : Nat) (low high : Float32) : Prop where
  finite_low : low.isFinite = true
  finite_high : high.isFinite = true
  low_le : ∀ i < count, value low ≤ value (weight i)
  le_high : ∀ i < count, value (weight i) ≤ value high
  low_eq : value low = value Single.largest ∨ ∃ i < count, value (weight i) = value low
  high_eq : value high = -value Single.largest ∨ ∃ i < count, value (weight i) = value high

variable {weight : Nat → Float32} {count : Nat}

namespace Spans

variable {low high : Float32}

/-- One more finite weight widens the span to itself. -/
theorem step (h : Spans weight count low high) (hfinite : (weight count).isFinite = true) :
    Spans weight (count + 1) (Single.lesser low (weight count))
      (Single.greater high (weight count)) := by
  obtain ⟨hlesser, hmin⟩ := Single.value_lesser h.finite_low hfinite
  obtain ⟨hgreater, hmax⟩ := Single.value_greater h.finite_high hfinite
  refine ⟨hlesser, hgreater, ?_, ?_, ?_, ?_⟩
  · intro i hi
    rw [hmin]
    rcases Nat.lt_succ_iff_lt_or_eq.mp hi with hi | rfl
    · exact (min_le_left _ _).trans (h.low_le i hi)
    · exact min_le_right _ _
  · intro i hi
    rw [hmax]
    rcases Nat.lt_succ_iff_lt_or_eq.mp hi with hi | rfl
    · exact (h.le_high i hi).trans (le_max_left _ _)
    · exact le_max_right _ _
  · rw [hmin]
    rcases min_choice (value low) (value (weight count)) with hold | hnew
    · rw [hold]
      exact h.low_eq.imp_right fun ⟨i, hi, hvalue⟩ => ⟨i, Nat.lt_succ_of_lt hi, hvalue⟩
    · exact .inr ⟨count, Nat.lt_succ_self count, hnew.symm⟩
  · rw [hmax]
    rcases max_choice (value high) (value (weight count)) with hold | hnew
    · rw [hold]
      exact h.high_eq.imp_right fun ⟨i, hi, hvalue⟩ => ⟨i, Nat.lt_succ_of_lt hi, hvalue⟩
    · exact .inr ⟨count, Nat.lt_succ_self count, hnew.symm⟩

/-- No finite weight is beyond the number the search starts with, so a weight replaces it. -/
theorem exists_low (h : Spans weight count low high) (hcount : 0 < count)
    (hfinite : ∀ i < count, (weight i).isFinite = true) :
    ∃ i < count, value (weight i) = value low := by
  rcases h.low_eq with hlargest | hmem
  · have hbound := (abs_le.mp (Single.abs_value_le_largest (hfinite 0 hcount))).2
    rw [← Single.value_largest, ← hlargest] at hbound
    exact ⟨0, hcount, le_antisymm hbound (h.low_le 0 hcount)⟩
  · exact hmem

/-- The upper end of a span is the value of some weight. -/
theorem exists_high (h : Spans weight count low high) (hcount : 0 < count)
    (hfinite : ∀ i < count, (weight i).isFinite = true) :
    ∃ i < count, value (weight i) = value high := by
  rcases h.high_eq with hlargest | hmem
  · have hbound := (abs_le.mp (Single.abs_value_le_largest (hfinite 0 hcount))).1
    rw [← Single.value_largest, ← hlargest] at hbound
    exact ⟨0, hcount, le_antisymm (h.le_high 0 hcount) hbound⟩
  · exact hmem

end Spans

/-- The extremes of finite weights span them. -/
theorem spans_extremes (hfinite : ∀ i < count, (weight i).isFinite = true) :
    Spans weight count (extremes weight count).1 (extremes weight count).2 := by
  induction count with
  | zero =>
    exact ⟨Single.isFinite_largest, Single.isFinite_neg_largest, nofun, nofun, .inl rfl,
      .inl Single.value_neg_largest⟩
  | succ count ih =>
    have hbefore := ih fun i hi => hfinite i (Nat.lt_succ_of_lt hi)
    have hnext := hbefore.step (hfinite count (Nat.lt_succ_self count))
    simp only [extremes, Nat.fold_succ] at hnext ⊢
    exact hnext

/-! ### The scale before it is rounded -/

/-- The larger of the two scales that bring the extremes to the ends of the step range. -/
def exactScale (type : WeightType) (low high : Float32) : Float32 :=
  Single.greater (high.abs / Single.ofInt type.highest) (low.abs / Single.ofInt (-type.lowest))

/-- The step range of a symmetric type: as many steps below zero as its bias, and one less above. -/
theorem steps_of_biased {type : WeightType} (h : type.hasZeroPoint = false) :
    (type.bias = 8 ∨ type.bias = 128) ∧ type.highest = type.bias - 1 ∧
      type.lowest = -(type.bias : Int) := by
  cases type with
  | uint4b8 => exact ⟨.inl rfl, rfl, rfl⟩
  | uint8b128 => exact ⟨.inr rfl, rfl, rfl⟩
  | uint4 | uint8 => cases h

variable {type : WeightType} {low high : Float32}

/-- The highest level without a zero point is one less than the bias. -/
theorem highest_cast (h : type.hasZeroPoint = false) : (type.highest : ℚ) = type.bias - 1 := by
  rw [(steps_of_biased h).2.1]
  push_cast
  rfl

/-- The lowest level is the bias below zero. -/
theorem lowest_cast (type : WeightType) : (type.lowest : ℚ) = -type.bias := by
  rw [WeightType.lowest, Int.cast_neg, Int.cast_natCast]

/-- Both quotients are rounded, and the scale is the larger one. -/
structure Quotients (type : WeightType) (low high : Float32) (a b : ℚ) : Prop where
  finite : (exactScale type low high).isFinite = true
  rounds_high : Format.single.Rounds (|value high| / type.highest) a
  rounds_low : Format.single.Rounds (|value low| / (-type.lowest : ℤ)) b
  value_eq : value (exactScale type low high) = max a b

/-- Finite extremes have the two quotients that the scale is the greater of. -/
theorem exists_quotients (hbiased : type.hasZeroPoint = false) (hlow : low.isFinite = true)
    (hhigh : high.isFinite = true) : ∃ a b, Quotients type low high a b := by
  have hsteps := steps_of_biased hbiased
  obtain ⟨ha, hroundsHigh⟩ := Single.value_abs_div hhigh (by omega : 2 ≤ type.highest) (by omega)
  obtain ⟨hb, hroundsLow⟩ := Single.value_abs_div hlow (by omega : 2 ≤ -type.lowest) (by omega)
  obtain ⟨hfinite, hvalue⟩ := Single.value_greater ha hb
  exact ⟨_, _, hfinite, hroundsHigh, hroundsLow, hvalue⟩

/-- A rounded quotient is too large for half precision if the exact one is: between a smaller one
and the bound there is room for the error. -/
theorem quotient_lt_iff {x : Float32} (hx : x.isFinite = true) {d : Int} (hlow : 2 ≤ d)
    (hhigh : d ≤ 128) {a : ℚ} (h : Format.single.Rounds (|value x| / d) a) :
    a < 65520 ↔ |value x| < d * 65520 := by
  lift d to Nat using by omega
  rw [Int.cast_natCast] at h ⊢
  have hd : (0 : ℚ) < d := Nat.cast_pos.mpr (by omega)
  constructor
  · intro hlt
    by_contra hge
    have hle : ((4095 : ℕ) : ℚ) * 2 ^ (4 : ℤ) ≤ |value x| / d := by
      rw [le_div_iff₀ hd]
      norm_num
      linarith [not_lt.mp hge]
    have hbound := h.le_of_le (by decide) (by decide) hle
    norm_num at hbound
    linarith
  · intro hlt
    have hgap : |value x| * 2 ^ 24 ≤ (d * 65520 : ℕ) * (2 ^ 24 - 1) :=
      Single.abs_value_le_of_lt hx (by omega) (by push_cast; exact hlt)
    have hquotient : |value x| / d * 2 ^ 24 ≤ 65520 * (2 ^ 24 - 1) := by
      rw [div_mul_eq_mul_div, div_le_iff₀ hd]
      push_cast at hgap
      linarith
    have herror := (abs_le.mp (h.abs_sub_le (by positivity))).2
    have hfraction : Format.single.fractionBits = 23 := rfl
    have hunit : Format.single.unitExponent = -149 := rfl
    rw [hfraction, hunit] at herror
    norm_num at herror hquotient
    linarith

namespace Quotients

variable {a b : ℚ}

/-- The scale is not negative before it is rounded. -/
theorem nonneg (h : Quotients type low high a b) : 0 ≤ value (exactScale type low high) := by
  rw [h.value_eq]
  exact le_max_of_le_left h.rounds_high.nonneg

/-- The scale rounds to a finite number of half precision exactly if both extremes are near enough
to zero. -/
theorem lt_iff (h : Quotients type low high a b) (hbiased : type.hasZeroPoint = false)
    (hlow : low.isFinite = true) (hhigh : high.isFinite = true) :
    value (exactScale type low high) < 65520 ↔
      |value high| < type.highest * 65520 ∧ |value low| < -(type.lowest * 65520) := by
  have hsteps := steps_of_biased hbiased
  rw [h.value_eq, max_lt_iff, quotient_lt_iff hhigh (by omega) (by omega) h.rounds_high,
    quotient_lt_iff hlow (by omega) (by omega) h.rounds_low, Int.cast_neg, neg_mul]

end Quotients

/-! ### The scale in half precision -/

theorem value_one : value 1 = 1 := by
  have hdatum : Single.datum 1 = .finite false 8388608 (-23) := by decide +kernel
  rw [Single.value_of_datum hdatum, signedValue, if_neg Bool.false_ne_true]
  norm_num

/-- A scale is rounded to half precision, and replaced by one if that leaves zero. -/
def StoredAs (v s : ℚ) : Prop := Format.half.Rounds v s ∨ Format.half.Rounds v 0 ∧ s = 1

variable {x : Float32}

/-- A scale below `65520` is stored as a number of half precision. -/
theorem storableScale_of_lt (hx : x.isFinite = true) (hnonneg : 0 ≤ value x)
    (hlt : value x < 65520) : (storableScale x).isFinite = true ∧
      (∃ binade m : Nat, Format.half.Canonical binade m ∧
        value (storableScale x) = m * 2 ^ (-24 + (binade : ℤ))) ∧
      StoredAs (value x) (value (storableScale x)) := by
  obtain ⟨hfinite, binade, m, hc, hvalue, hrounds⟩ := Half.value_toSingle_ofSingle hx hnonneg hlt
  rw [storableScale]
  split_ifs with hpos
  · exact ⟨hfinite, ⟨binade, m, hc, hvalue⟩, .inl (hvalue ▸ hrounds)⟩
  · have hzero : (m * 2 ^ (-24 + (binade : ℤ)) : ℚ) = 0 := by
      rw [Single.lt_iff_value_lt rfl hfinite, Single.value_of_zero rfl, hvalue] at hpos
      exact le_antisymm (not_lt.mp hpos) (by positivity)
    refine ⟨rfl, ⟨14, 1024, ⟨by decide, by decide, by decide⟩, ?_⟩,
      .inr ⟨hzero ▸ hrounds, value_one⟩⟩
    rw [value_one]
    norm_num

/-- From `65520` on a scale is infinite. -/
theorem storableScale_of_le (hx : x.isFinite = true) (hle : 65520 ≤ value x) :
    (storableScale x).toModel.unpack = .infinity .positive := by
  have hdatum := Half.datum_toSingle_ofSingle hx hle
  rw [Single.datum_eq] at hdatum
  have hunpack : (Half.ofSingle x).toSingle.toModel.unpack = .infinity .positive := by
    cases hu : (Half.ofSingle x).toSingle.toModel.unpack with
    | infinity s =>
      rw [hu] at hdatum
      cases s with
      | positive => rfl
      | negative => cases hdatum
    | notANumber | zero | finite =>
      rw [hu] at hdatum
      cases hdatum
  have hpos : 0 < (Half.ofSingle x).toSingle := by
    rw [Single.lt_iff_compare, hunpack]
    rfl
  rw [storableScale, if_pos hpos, hunpack]

/-! ### The reach of a scale -/

/-- A scale of enough spacings is off by less than its share of one step. -/
theorem StoredAs.exists_spacing {v s : ℚ} (h : StoredAs v s) {d : Nat} (hd : d ≤ 2048)
    (hle : (d : ℚ) / 2 ^ 25 ≤ s) :
    ∃ u : ℚ, 1 / 2 ^ 24 ≤ u ∧ v ≤ s + u / 2 ∧ d * u ≤ 2 * s := by
  have hunit : (2 : ℚ) ^ (-24 : ℤ) = 1 / 2 ^ 24 := by norm_num
  rcases h with ⟨n, e, hn, rfl⟩ | ⟨⟨n, e, hn, hzero⟩, rfl⟩
  · have hpos : (0 : ℚ) < 2 ^ e := by positivity
    refine ⟨2 ^ e, ?_, ?_, ?_⟩
    · rw [← hunit]
      exact zpow_le_zpow_right₀ one_le_two hn.unit_le
    · linarith [(abs_le.mp hn.error).1]
    · by_cases he : e = -24
      · rw [he, hunit] at hle ⊢
        linarith
      · have hsteps : d ≤ 2 * n := hd.trans (Nat.mul_le_mul_left 2 (hn.le_steps he))
        have hcast : (d : ℚ) ≤ 2 * n := by exact_mod_cast hsteps
        linarith [mul_le_mul_of_nonneg_right hcast hpos.le]
  · -- in place of a scale that was rounded to zero, one has room for all
    have hcast : (d : ℚ) ≤ 2048 := by exact_mod_cast hd
    have hsmall : v ≤ 1 := by
      have herror := (abs_le.mp hn.error).1
      rw [← hzero] at herror
      rcases hn.lead with he | hlead
      · have hexponent : Format.half.unitExponent = -24 := rfl
        rw [he, hexponent, hunit] at herror
        norm_num at herror
        linarith
      · have hpos : (0 : ℚ) < 2 ^ e := by positivity
        have hbits : Format.half.fractionBits = 10 := rfl
        rw [hbits, zpow_add₀ two_ne_zero] at hlead
        norm_num at hlead
        linarith
    exact ⟨1 / 1024, by norm_num, by linarith, by linarith⟩

/-- The exact quotient exceeds the rounded one by less than one part in `2 ^ 23`. -/
theorem exact_le_of_rounds {v a : ℚ} (h : Format.single.Rounds v a) (hv : 0 ≤ v) :
    v ≤ a + v / 2 ^ 24 + 1 / 2 ^ 150 := by
  have herror := (abs_le.mp (h.abs_sub_le hv)).1
  have hunit : (2 : ℚ) ^ Format.single.unitExponent / 2 = 1 / 2 ^ 150 := by
    have hexponent : Format.single.unitExponent = -149 := rfl
    rw [hexponent]
    norm_num
  have hfraction : Format.single.fractionBits + 1 = 24 := rfl
  rw [hunit, hfraction] at herror
  linarith

/-- Dividing by a power of two is exact, but for numbers that are next to nothing. -/
theorem exact_or_tiny {x : Float32} (hx : x.isFinite = true) {k : Nat} (hk : k ≤ 7) {b : ℚ}
    (h : Format.single.Rounds (|value x| / 2 ^ k) b) :
    b = |value x| / 2 ^ k ∨ |value x| ≤ 2 ^ (-118 : ℤ) := by
  obtain ⟨binade, m, hc, hvalue⟩ := Single.exists_canonical_value hx
  rcases Nat.lt_or_ge binade k with hlt | hge
  · right
    have hm : (m : ℚ) ≤ 2 ^ (24 : ℤ) := by exact_mod_cast hc.steps_lt.le
    rw [hvalue]
    calc (m * 2 ^ (-149 + (binade : ℤ)) : ℚ) ≤ 2 ^ (24 : ℤ) * 2 ^ (-142 : ℤ) := by
          gcongr
          · exact one_le_two
          · omega
      _ = 2 ^ (-118 : ℤ) := by rw [← zpow_add₀ two_ne_zero]; rfl
  · left
    have hquotient : |value x| / 2 ^ k = m * 2 ^ (-149 + (binade : ℤ) - k) := by
      rw [hvalue, zpow_sub₀ two_ne_zero, zpow_natCast, mul_div_assoc]
    have hunit : Format.single.unitExponent ≤ -149 + (binade : ℤ) - k := by
      have hexponent : Format.single.unitExponent = -149 := rfl
      omega
    exact h.eq_of_eq hc.steps_lt hunit hquotient

/-- The step ranges are powers of two. -/
theorem exists_eq_two_pow {d : Nat} (hd : d = 8 ∨ d = 128) : ∃ k, 1 ≤ k ∧ k ≤ 7 ∧ d = 2 ^ k := by
  rcases hd with rfl | rfl
  · exact ⟨3, by decide, by decide, rfl⟩
  · exact ⟨7, by decide, by decide, rfl⟩

/-- The weights above zero are reached. -/
theorem high_reach {d : Nat} (hd : d = 8 ∨ d = 128) {v a s u : ℚ} (hv : 0 ≤ v)
    (h : Format.single.Rounds (v / (d - 1)) a) (hu : 1 / 2 ^ 24 ≤ u) (hle : a ≤ s + u / 2)
    (hshare : d * u ≤ 2 * s) : v ≤ d * s := by
  rcases hd with rfl | rfl
  · have hexact := exact_le_of_rounds h (div_nonneg hv (by norm_num))
    norm_num at hexact hu hshare ⊢
    linarith only [hexact, hu, hle, hshare]
  · have hexact := exact_le_of_rounds h (div_nonneg hv (by norm_num))
    norm_num at hexact hu hshare ⊢
    linarith only [hexact, hu, hle, hshare]

/-- The weights below zero are reached. Here the bound is attained, so the quotient has to be
exact. -/
theorem low_reach {d : Nat} (hd : d = 8 ∨ d = 128) {x : Float32} (hx : x.isFinite = true)
    {b s u : ℚ} (h : Format.single.Rounds (|value x| / d) b) (hu : 1 / 2 ^ 24 ≤ u)
    (hle : b ≤ s + u / 2) (hshare : d * u ≤ 2 * s) : |value x| ≤ (d + 1) * s := by
  obtain ⟨k, -, hk, rfl⟩ := exists_eq_two_pow hd
  push_cast at h hshare ⊢
  have hpow : (1 : ℚ) ≤ 2 ^ k := one_le_pow₀ one_le_two
  rcases exact_or_tiny hx hk h with rfl | htiny
  · rw [div_le_iff₀ (by positivity)] at hle
    linarith
  · have hspacing : u ≤ 2 ^ k * u := le_mul_of_one_le_left (by linarith) hpow
    have hs : (1 : ℚ) / 2 ^ 25 ≤ s := by linarith
    have hmany : 0 ≤ 2 ^ k * s := by positivity
    norm_num at htiny hs
    linarith

namespace Quotients

variable {a b s : ℚ}

/-- A scale of at least half as many spacings of half precision as the type has steps below zero
reaches the extremes of its group within one step. -/
theorem reaches (h : Quotients type low high a b) (hbiased : type.hasZeroPoint = false)
    (hlow : low.isFinite = true) (hs : StoredAs (value (exactScale type low high)) s)
    (hle : ((type.highest : ℚ) + 1) / 2 ^ 25 ≤ s) :
    |value high| ≤ (type.highest + 1) * s ∧ |value low| ≤ (1 - type.lowest) * s := by
  have hbias := (steps_of_biased hbiased).1
  have hhigh := h.rounds_high
  have hdeep := h.rounds_low
  rw [Int.cast_neg, lowest_cast, neg_neg] at hdeep
  rw [highest_cast hbiased] at hhigh
  rw [highest_cast hbiased, sub_add_cancel] at hle ⊢
  rw [lowest_cast, sub_neg_eq_add, add_comm 1]
  obtain ⟨u, hu, hv, hshare⟩ := hs.exists_spacing (by omega) hle
  rw [h.value_eq, max_le_iff] at hv
  exact ⟨high_reach hbias (abs_nonneg _) hhigh hu hv.1 hshare,
    low_reach hbias hlow hdeep hu hv.2 hshare⟩

/-- The scale is of that many spacings if one of the extremes is large enough. -/
theorem le_of_extreme (h : Quotients type low high a b) (hbiased : type.hasZeroPoint = false)
    (hs : StoredAs (value (exactScale type low high)) s)
    (hextreme : ((type.highest : ℚ) + 1) ^ 2 / 2 ^ 25 ≤ max |value high| |value low|) :
    ((type.highest : ℚ) + 1) / 2 ^ 25 ≤ s := by
  have hhigh := h.rounds_high
  have hdeep := h.rounds_low
  rw [highest_cast hbiased] at hhigh
  rw [highest_cast hbiased, sub_add_cancel] at hextreme ⊢
  rw [Int.cast_neg, lowest_cast, neg_neg] at hdeep
  -- the bound is a power of two, which both roundings keep
  obtain ⟨k, hk, -, hbias⟩ := exists_eq_two_pow (steps_of_biased hbiased).1
  have hpower : (type.bias : ℚ) / 2 ^ 25 = (1 : ℕ) * 2 ^ ((k : ℤ) - 25) := by
    rw [hbias, zpow_sub₀ two_ne_zero, zpow_natCast]
    norm_num
  have hbase : (1 : ℚ) < type.bias := by
    rw [hbias]
    exact_mod_cast Nat.one_lt_two_pow (by omega)
  have hquotient : (type.bias : ℚ) / 2 ^ 25 ≤ max a b := by
    have hunit : Format.single.unitExponent ≤ (k : ℤ) - 25 := by
      have hexponent : Format.single.unitExponent = -149 := rfl
      omega
    rw [le_max_iff, hpower]
    rcases le_max_iff.mp hextreme with hextreme | hextreme
    · refine .inl (hhigh.le_of_le (by decide) hunit ?_)
      rw [← hpower, le_div_iff₀ (by linarith)]
      nlinarith
    · refine .inr (hdeep.le_of_le (by decide) hunit ?_)
      rw [← hpower, le_div_iff₀ (by linarith)]
      nlinarith
  have hunit : Format.half.unitExponent ≤ (k : ℤ) - 25 := by
    have hexponent : Format.half.unitExponent = -24 := rfl
    omega
  rw [← h.value_eq, hpower] at hquotient
  rw [hpower]
  rcases hs with hs | ⟨hs, -⟩
  · exact hs.le_of_le (by decide) hunit hquotient
  · have hnot := hs.le_of_le (by decide) hunit hquotient
    exact absurd hnot (not_le.mpr (by positivity))

end Quotients

/-! ### Groups of finite weights -/

/-- The weights of a group lie within the reach of the largest half-precision scale on their side of
zero. The largest weight is held to the bound above zero even where it is negative. -/
def InRange (type : WeightType) (weight : Nat → Float32) (count : Nat) : Prop :=
  (∀ i < count, type.lowest * 65520 < value (weight i) ∧
    value (weight i) < type.highest * 65520) ∧
  ∃ i < count, -(type.highest * 65520) < value (weight i)

section

variable (hbiased : type.hasZeroPoint = false) (hcount : 0 < count)
  (hfinite : ∀ i < count, (weight i).isFinite = true)

include hbiased hcount hfinite

/-- The scale of a group rounds to a finite number exactly if its weights are in range. -/
theorem exactScale_lt_iff :
    value (exactScale type (extremes weight count).1 (extremes weight count).2) < 65520 ↔
      InRange type weight count := by
  have hspans := spans_extremes hfinite
  obtain ⟨a, b, hquotients⟩ := exists_quotients hbiased hspans.finite_low hspans.finite_high
  rw [hquotients.lt_iff hbiased hspans.finite_low hspans.finite_high, abs_lt, abs_lt, neg_neg]
  obtain ⟨l, hl, hlow⟩ := hspans.exists_low hcount hfinite
  obtain ⟨r, hr, hhigh⟩ := hspans.exists_high hcount hfinite
  constructor
  · rintro ⟨⟨hnegative, hpositive⟩, hdeep, -⟩
    have hall (i : Nat) (hi : i < count) := And.intro (hdeep.trans_le (hspans.low_le i hi))
      ((hspans.le_high i hi).trans_lt hpositive)
    exact ⟨hall, r, hr, hhigh ▸ hnegative⟩
  · rintro ⟨hall, i, hi, hnegative⟩
    have hrange : (type.highest * 65520 : ℚ) < -(type.lowest * 65520) := by
      rw [highest_cast hbiased, lowest_cast]
      linarith
    rw [← hhigh, ← hlow]
    exact ⟨⟨hnegative.trans_le (hhigh ▸ hspans.le_high i hi), (hall r hr).2⟩, (hall l hl).1,
      (hall l hl).2.trans hrange⟩

/-- Outside the range the scale is infinite. -/
theorem unpack_groupScale (h : ¬ InRange type weight count) :
    (groupScale type weight count).toModel.unpack = .infinity .positive := by
  have hspans := spans_extremes hfinite
  obtain ⟨a, b, hquotients⟩ := exists_quotients hbiased hspans.finite_low hspans.finite_high
  rw [← exactScale_lt_iff hbiased hcount hfinite, not_lt] at h
  exact storableScale_of_le hquotients.finite h

/-- Within the range the scale is a number of half precision. -/
theorem groupScale_of_inRange (h : InRange type weight count) :
    (groupScale type weight count).isFinite = true ∧
      (∃ binade m : Nat, Format.half.Canonical binade m ∧
        value (groupScale type weight count) = m * 2 ^ (-24 + (binade : ℤ))) ∧
      StoredAs (value (exactScale type (extremes weight count).1 (extremes weight count).2))
        (value (groupScale type weight count)) := by
  have hspans := spans_extremes hfinite
  obtain ⟨a, b, hquotients⟩ := exists_quotients hbiased hspans.finite_low hspans.finite_high
  exact storableScale_of_lt hquotients.finite hquotients.nonneg
    ((exactScale_lt_iff hbiased hcount hfinite).mpr h)

/-- The scale of a group is finite exactly if its weights are in range. -/
theorem isFinite_groupScale_iff :
    (groupScale type weight count).isFinite = true ↔ InRange type weight count := by
  refine ⟨fun hscale => ?_, fun h => (groupScale_of_inRange hbiased hcount hfinite h).1⟩
  by_contra h
  exact Single.ne_infinity_of_finite hscale _ (unpack_groupScale hbiased hcount hfinite h)

/-- Scales that are not too small reach all weights of their group within one step. -/
theorem reaches_of_le_groupScale (h : InRange type weight count)
    (hle : ((type.highest : ℚ) + 1) / 2 ^ 25 ≤ value (groupScale type weight count)) {i : Nat}
    (hi : i < count) :
    (type.lowest - 1) * value (groupScale type weight count) ≤ value (weight i) ∧
      value (weight i) ≤ (type.highest + 1) * value (groupScale type weight count) := by
  have hspans := spans_extremes hfinite
  obtain ⟨a, b, hquotients⟩ := exists_quotients hbiased hspans.finite_low hspans.finite_high
  obtain ⟨-, -, hstored⟩ := groupScale_of_inRange hbiased hcount hfinite h
  obtain ⟨hhigh, hlow⟩ := hquotients.reaches hbiased hspans.finite_low hstored hle
  have hbelow := (abs_le.mp hlow).1
  have habove := (abs_le.mp hhigh).2
  exact ⟨by linarith [hspans.low_le i hi], (hspans.le_high i hi).trans habove⟩

/-- Groups whose weights are not all too small have such scales. -/
theorem le_groupScale_of_le_weight (h : InRange type weight count) {i : Nat} (hi : i < count)
    (hle : ((type.highest : ℚ) + 1) ^ 2 / 2 ^ 25 ≤ |value (weight i)|) :
    ((type.highest : ℚ) + 1) / 2 ^ 25 ≤ value (groupScale type weight count) := by
  have hspans := spans_extremes hfinite
  obtain ⟨a, b, hquotients⟩ := exists_quotients hbiased hspans.finite_low hspans.finite_high
  obtain ⟨-, -, hstored⟩ := groupScale_of_inRange hbiased hcount hfinite h
  refine hquotients.le_of_extreme hbiased hstored (hle.trans ?_)
  rw [max_comm]
  exact abs_le_max_abs_abs (hspans.low_le i hi) (hspans.le_high i hi)

end

end Quantizer

end RoutedExperts
