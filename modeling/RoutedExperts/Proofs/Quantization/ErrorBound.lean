import Mathlib
import RoutedExperts.Proofs.Quantization.GroupScale

/-!
# The error of quantization

A reference weight is a whole number of steps of the scale of its group, and the product is exact
(`Level.value_toSingle_mul`). So it is off by at most one step from a weight that lies no more than
one step beyond the step range (`Level.abs_sub_toInt_le`). The main theorem says for which groups
that is so: the scale has to be finite in half precision, and not so small that its rounding takes
weights out of reach.
-/

namespace RoutedExperts

/-! ### Levels -/

namespace Level

open Single (value RoundsTo)

variable {type : WeightType} {y : Float32}

/-- The level of a finite quotient is the nearest whole number, up to the end of the range. -/
theorem nearest_of_isFinite (type : WeightType) (hy : y.isFinite = true) : ∃ negative count,
    nearest type y = steps negative (min count (limit type negative)) ∧
      value y = signedValue negative |value y| ∧ IsRounded |value y| count := by
  obtain ⟨negative, m, e, hdatum⟩ := Single.isFinite_iff_datum.mp hy
  have hmagnitude : (0 : ℚ) ≤ m * 2 ^ e := by positivity
  have hvalue := Single.value_of_datum hdatum
  have habs : |value y| = m * 2 ^ e := by rw [hvalue, abs_signedValue, abs_of_nonneg hmagnitude]
  have hrounded := isRounded_nearestSteps m e 0
  rw [zpow_zero, div_one] at hrounded
  refine ⟨negative, nearestSteps m e 0, ?_, by rw [habs, hvalue], by rwa [habs]⟩
  rw [nearest, hdatum, nearestSteps, Int.sub_zero, Int.zero_sub]

/-- A level of some steps counts as their signed number. -/
theorem toInt_steps (negative : Bool) (count : Nat) :
    ((steps negative count).toInt : ℚ) = signedValue negative count := by
  cases negative
  · exact Int.cast_natCast count
  · exact (Int.cast_neg _).trans (congrArg Neg.neg (Int.cast_natCast count))

/-- The ends of the range. -/
theorem limit_cast (hbiased : type.hasZeroPoint = false) :
    (limit type false : Int) = type.highest ∧ (limit type true : Int) = -type.lowest := by
  cases type with
  | uint4b8 | uint8b128 => exact ⟨rfl, rfl⟩
  | uint4 | uint8 => cases hbiased

/-- The level nearest to a quotient is between the lowest and the highest. -/
theorem toInt_nearest_mem (hbiased : type.hasZeroPoint = false) (y : Float32) :
    type.lowest ≤ (nearest type y).toInt ∧ (nearest type y).toInt ≤ type.highest := by
  have hsteps := Quantizer.steps_of_biased hbiased
  obtain ⟨hhigh, hlow⟩ := limit_cast hbiased
  have hfits := fits_nearest type y
  cases hlevel : nearest type y with
  | undefined =>
    rw [toInt]
    omega
  | steps negative count =>
    rw [hlevel] at hfits
    cases negative with
    | false =>
      have hcount : count ≤ limit type false := hfits
      simp only [toInt, Bool.false_eq_true, ite_false]
      omega
    | true =>
      have hcount : count ≤ limit type true := hfits
      simp only [toInt, ite_true]
      omega

/-- What is within a step of the levels is small enough to be computed with. -/
theorem abs_le_of_mem {t : ℚ} (hbiased : type.hasZeroPoint = false)
    (hlow : (type.lowest : ℚ) - 1 ≤ t) (hhigh : t ≤ type.highest + 1) : |t| ≤ 129 := by
  have hsteps := Quantizer.steps_of_biased hbiased
  have hleast : (-128 : ℚ) ≤ type.lowest := by exact_mod_cast (by omega : -128 ≤ type.lowest)
  have hlargest : (type.highest : ℚ) ≤ 127 := by exact_mod_cast (by omega : type.highest ≤ 127)
  exact abs_le.mpr ⟨by linarith, by linarith⟩

/-- A quotient no more than one step beyond the range is no more than one step from its level. -/
theorem abs_sub_toInt_le {t : ℚ} (hbiased : type.hasZeroPoint = false) (hy : y.isFinite = true)
    (hrounds : RoundsTo t (value y)) (hlow : (type.lowest : ℚ) - 1 ≤ t)
    (hhigh : t ≤ type.highest + 1) : |t - (nearest type y).toInt| ≤ 1 := by
  obtain ⟨negative, count, hlevel, hsign, hrounded⟩ := nearest_of_isFinite type hy
  obtain ⟨htop, hbottom⟩ := limit_cast hbiased
  -- the quotient is not far from what it was rounded from
  have hclose : |value y - t| ≤ 1 / 2 := by
    have hsize := abs_le_of_mem hbiased hlow hhigh
    have herror := hrounds.abs_sub_le
    norm_num at herror ⊢
    linarith
  obtain ⟨hbelow, habove⟩ := abs_le.mp hclose
  obtain ⟨hrest, hrest'⟩ := abs_le.mp hrounded.error
  rw [hlevel, toInt_steps, abs_le]
  rcases le_or_gt count (limit type negative) with hfits | hbeyond
  · rw [Nat.min_eq_left hfits]
    cases negative with
    | false =>
      simp only [signedValue, Bool.false_eq_true, ite_false] at hsign ⊢
      constructor <;> linarith
    | true =>
      simp only [signedValue, ite_true] at hsign ⊢
      constructor <;> linarith
  · -- beyond the end, the quotient is at the end or past it
    rw [Nat.min_eq_right hbeyond.le]
    have hcount : (limit type negative : ℚ) + 1 ≤ count := by exact_mod_cast hbeyond
    cases negative with
    | false =>
      have hend : (limit type false : ℚ) = type.highest := by exact_mod_cast htop
      simp only [signedValue, Bool.false_eq_true, ite_false] at hsign ⊢
      constructor <;> linarith
    | true =>
      have hend : (limit type true : ℚ) = -type.lowest := by exact_mod_cast hbottom
      simp only [signedValue, ite_true] at hsign ⊢
      constructor <;> linarith

/-- A number of steps of a half-precision scale has few enough digits to be exact. -/
theorem value_toSingle_mul (negative : Bool) {count : Nat} (hcount : count ≤ 128) {s : Float32}
    (hs : s.isFinite = true) {binade m : Nat} (hc : Format.half.Canonical binade m)
    (hvalue : value s = m * 2 ^ (-24 + (binade : ℤ))) :
    ((steps negative count).toSingle * s).isFinite = true ∧
      value ((steps negative count).toSingle * s) = (steps negative count).toInt * value s := by
  have hm : m < 2 ^ 11 := hc.steps_lt
  have hlevel : (count * 2 ^ (0 : ℤ) : ℚ) < 2 ^ (127 : ℤ) := by
    have hcast : (count : ℚ) ≤ 128 := by exact_mod_cast hcount
    norm_num
    linarith
  obtain ⟨hfinite, hsteps⟩ :=
    Single.value_ofDatum negative (by omega : count < 2 ^ 24) (by decide) hlevel
  rw [zpow_zero, mul_one, ← toInt_steps] at hsteps
  have habs : |((steps negative count).toInt : ℚ) * value s| =
      (count * m : ℕ) * 2 ^ (-24 + (binade : ℤ)) := by
    rw [abs_mul, toInt_steps, abs_signedValue, hvalue, Nat.abs_cast,
      abs_of_nonneg (by positivity : (0 : ℚ) ≤ m * 2 ^ (-24 + (binade : ℤ)))]
    push_cast
    ring
  have hdigits : count * m < 2 ^ 24 :=
    calc count * m ≤ 128 * 2 ^ 11 := Nat.mul_le_mul hcount hm.le
      _ < 2 ^ 24 := by decide
  have hsmall : ((count * m : ℕ) * 2 ^ (-24 + (binade : ℤ)) : ℚ) < 2 ^ (127 : ℤ) := by
    have hcast : (count : ℚ) ≤ 128 := by exact_mod_cast hcount
    calc ((count * m : ℕ) * 2 ^ (-24 + (binade : ℤ)) : ℚ)
        = count * (m * 2 ^ (-24 + (binade : ℤ))) := by rw [Nat.cast_mul, mul_assoc]
      _ ≤ 128 * 2 ^ (18 : ℤ) := by
        gcongr
        exact (Half.magnitude_lt hc).le
      _ < 2 ^ (127 : ℤ) := by norm_num
  rw [← habs, ← hsteps] at hsmall
  obtain ⟨hproduct, hrounds⟩ := Single.value_mul hfinite hs hsmall
  refine ⟨hproduct, (hrounds.eq_of_abs_eq hdigits (by omega) (hsteps ▸ habs)).trans ?_⟩
  rw [hsteps]

/-- No steps of an infinite scale are no number. -/
theorem isNaN_toSingle_mul (type : WeightType) {w s : Float32} (hw : w.isFinite = true)
    (hs : s.toModel.unpack = .infinity .positive) :
    ((nearest type (w / s)).toSingle * s).isNaN = true := by
  obtain ⟨sign, hquotient⟩ : ∃ sign, (w / s).toModel.unpack = .zero sign := by
    rw [Single.unpack_div_eq, hs]
    rcases Single.finite_cases hw with ⟨sign, hw⟩ | ⟨sign, m, e, hm, hw⟩ <;> rw [hw]
    · exact ⟨_, Single.unpack_pack nofun⟩
    · exact ⟨_, Single.unpack_pack nofun⟩
  obtain ⟨negative, count, hlevel, -, hrounded⟩ :=
    nearest_of_isFinite type (Single.isFinite_of_zero hquotient)
  have hcount : count = 0 := by
    have herror := (abs_le.mp hrounded.error).2
    rw [Single.value_of_zero hquotient, abs_zero, sub_zero] at herror
    have hlt : (count : ℚ) < 1 := by linarith
    exact Nat.lt_one_iff.mp (by exact_mod_cast hlt)
  rw [hlevel, hcount, Nat.zero_min]
  cases negative with
  | false => exact Single.isNaN_zero_mul_infinity rfl hs
  | true => exact Single.isNaN_zero_mul_infinity rfl hs

end Level

namespace Quantizer

open Single (value)

/-! ### Reference weights -/

section

variable {type : WeightType} {weight : Nat → Float32} {count i : Nat}
  (hbiased : type.hasZeroPoint = false) (hcount : 0 < count)
  (hfinite : ∀ i < count, (weight i).isFinite = true)

include hbiased hcount hfinite

/-- The scale of weights in range has a positive value. -/
theorem value_groupScale_pos (h : InRange type weight count) :
    0 < value (groupScale type weight count) := by
  obtain ⟨hscale, -, -⟩ := groupScale_of_inRange hbiased hcount hfinite h
  have hpos : 0 < groupScale type weight count := pos_storableScale _
  rwa [Single.lt_iff_value_lt rfl hscale, Single.value_of_zero rfl] at hpos

/-- A reference weight is its level times the scale. -/
theorem value_groupReference (h : InRange type weight count) (hi : i < count) :
    (groupReference type weight count i).isFinite = true ∧
      value (groupReference type weight count i) =
        (groupLevel type weight count i).toInt * value (groupScale type weight count) := by
  obtain ⟨hscale, ⟨binade, m, hc, hvalue⟩, -⟩ := groupScale_of_inRange hbiased hcount hfinite h
  have hsteps := steps_of_biased hbiased
  have hlimit := Level.limit_cast hbiased
  have hfits : (groupLevel type weight count i).Fits type := Level.fits_nearest type _
  rw [groupReference]
  cases hlevel : groupLevel type weight count i with
  | undefined =>
    -- only an infinite scale leaves no quotient
    have hinfinite := Single.infinite_of_isNaN_div (Single.isNaN_of_isFinite (hfinite i hi))
      (pos_storableScale _) (Level.isNaN_of_nearest hlevel)
    exact absurd hinfinite (Single.ne_infinity_of_finite hscale _)
  | steps negative n =>
    rw [hlevel] at hfits
    have hn : n ≤ 128 := by
      have hle : n ≤ Level.limit type negative := hfits
      cases negative <;> omega
    exact Level.value_toSingle_mul negative hn hscale hc hvalue

/-- A reference weight is finite exactly if the weights of its group are in range. -/
theorem isFinite_groupReference_iff (hi : i < count) :
    (groupReference type weight count i).isFinite = true ↔ InRange type weight count := by
  refine ⟨fun hreference => ?_, fun h => (value_groupReference hbiased hcount hfinite h hi).1⟩
  by_contra h
  have hnan := Level.isNaN_toSingle_mul type (hfinite i hi)
    (unpack_groupScale hbiased hcount hfinite h)
  exact absurd hnan (Bool.eq_false_iff.mp (Single.isNaN_of_isFinite hreference))

/-- A reference weight is within one scale of its weight if the weight is within one step of the
range of steps. -/
theorem error_le_iff (h : InRange type weight count) (hi : i < count) :
    |value (weight i) - value (groupReference type weight count i)| ≤
        value (groupScale type weight count) ↔
      (type.lowest - 1) * value (groupScale type weight count) ≤ value (weight i) ∧
        value (weight i) ≤ (type.highest + 1) * value (groupScale type weight count) := by
  obtain ⟨hscale, -, -⟩ := groupScale_of_inRange hbiased hcount hfinite h
  have hpos := value_groupScale_pos hbiased hcount hfinite h
  rw [(value_groupReference hbiased hcount hfinite h hi).2]
  constructor
  · intro herror
    have hmem := Level.toInt_nearest_mem hbiased (weight i / groupScale type weight count)
    obtain ⟨hbelow, habove⟩ := abs_le.mp herror
    have hlow : (type.lowest : ℚ) ≤ (groupLevel type weight count i).toInt := by
      exact_mod_cast hmem.1
    have hhigh : ((groupLevel type weight count i).toInt : ℚ) ≤ type.highest := by
      exact_mod_cast hmem.2
    constructor
    · linarith [mul_le_mul_of_nonneg_right hlow hpos.le]
    · linarith [mul_le_mul_of_nonneg_right hhigh hpos.le]
  · rintro ⟨hlow, hhigh⟩
    rw [← le_div_iff₀ hpos] at hlow
    rw [← div_le_iff₀ hpos] at hhigh
    have hsmall : |value (weight i) / value (groupScale type weight count)| < 2 ^ (127 : ℤ) :=
      (Level.abs_le_of_mem hbiased hlow hhigh).trans_lt (by norm_num)
    obtain ⟨hquotient, hrounds⟩ := Single.value_div (hfinite i hi) hscale hpos hsmall
    have hlevel := Level.abs_sub_toInt_le hbiased hquotient hrounds hlow hhigh
    have hscaled : value (weight i) -
        (groupLevel type weight count i).toInt * value (groupScale type weight count) =
        (value (weight i) / value (groupScale type weight count) -
          (groupLevel type weight count i).toInt) * value (groupScale type weight count) := by
      rw [sub_mul, div_mul_cancel₀ _ hpos.ne']
    rw [hscaled, abs_mul, abs_of_pos hpos]
    exact mul_le_of_le_one_left hpos.le hlevel

end

/-! ### Quantizing a matrix -/

variable {weights : Array Float32} {rows columns : Nat} {type : WeightType} {groupSize : Int}
  {q : Quantized}

/-- What quantizing finite weights is off by. A scale is finite if its group is in range for half
precision, and then so are the reference weights. There the error is at most the scale for just the
weights within one step of the range of steps. These are all weights of the group if the scale is at
least `(highest + 1) / 2` times the least number of half precision, or if a weight of the group is
at least `highest + 1` times as large as that. -/
theorem quantize_error_le_scale (h : quantize weights rows columns type groupSize = .ok q)
    (hfinite : ∀ w ∈ weights, w.isFinite = true) {k n : Nat} (hk : k < rows) (hn : n < columns) :
    ∃ w s r, weights[k * columns + n]? = some w ∧
      q.scales[k / groupRows rows groupSize * columns + n]? = some s ∧
      q.reference[k * columns + n]? = some r ∧
      (s.isFinite = true ↔ InRange type (groupWeight weights columns (groupRows rows groupSize)
        (k / groupRows rows groupSize) n) (groupRows rows groupSize)) ∧
      (r.isFinite = true ↔ s.isFinite = true) ∧
      (s.isFinite = true →
        (|value w - value r| ≤ value s ↔
          (type.lowest - 1) * value s ≤ value w ∧ value w ≤ (type.highest + 1) * value s) ∧
        ((type.highest + 1) / 2 ^ 25 ≤ value s → |value w - value r| ≤ value s) ∧
        ((∃ i < groupRows rows groupSize, (type.highest + 1) ^ 2 / 2 ^ 25 ≤
            |value (groupWeight weights columns (groupRows rows groupSize)
              (k / groupRows rows groupSize) n i)|) →
          |value w - value r| ≤ value s)) := by
  obtain ⟨hbiased, hsize, -, hpos, hmod, hq⟩ := (quantize_eq_ok_iff ..).mp h
  generalize groupRows rows groupSize = length at hpos hmod hq ⊢
  have hgrouped : Grouped weights rows columns type q length :=
    ⟨hbiased, hsize, hpos, hq ▸ Nat.div_mul_cancel (Nat.dvd_of_mod_eq_zero hmod), hq⟩
  rw [← hgrouped.groups_mul] at hk
  obtain ⟨hg, hi⟩ := row_lt_column_lt hk
  have hmember : ∀ i < length,
      (groupWeight weights columns length (k / length) n i).isFinite = true := by
    intro i hi
    have hplace := hgrouped.place_lt hg hn hi
    rw [← hsize] at hplace
    rw [groupWeight, ← Array.getElem_eq_getD (h := hplace)]
    exact hfinite _ (Array.getElem_mem hplace)
  have hweight : weights[k * columns + n]? =
      some (groupWeight weights columns length (k / length) n (k % length)) := by
    have hplace := hgrouped.place_lt hg hn hi
    rw [div_mul_add_mod, ← hsize] at hplace
    rw [groupWeight, div_mul_add_mod, getElem?_eq_some_getD hplace]
  have hreference := hgrouped.getElem?_reference hg hn hi
  rw [div_mul_add_mod] at hreference
  have hscale := isFinite_groupScale_iff hbiased hpos hmember
  refine ⟨_, groupScale type (groupWeight weights columns length (k / length) n) length,
    groupReference type (groupWeight weights columns length (k / length) n) length (k % length),
    hweight, hgrouped.getElem?_scales hg hn, hreference, hscale,
    (isFinite_groupReference_iff hbiased hpos hmember hi).trans hscale.symm, ?_⟩
  intro hstored
  have hrange := hscale.mp hstored
  have hiff := error_le_iff hbiased hpos hmember hrange hi
  have hreach := fun hle => hiff.mpr (reaches_of_le_groupScale hbiased hpos hmember hrange hle hi)
  refine ⟨hiff, hreach, ?_⟩
  rintro ⟨i, hi, hlarge⟩
  exact hreach (le_groupScale_of_le_weight hbiased hpos hmember hrange hi hlarge)

/-- A column of two weights, `3` and `-1.5`. -/
def sampleColumn : Array Float32 := #[.ofBits 0x40400000, .ofBits 0xbfc00000]

/-- The sample column is quantized as one group. -/
theorem quantize_sampleColumn : quantize sampleColumn 2 1 .uint4b8 (-1) =
    .ok (quantizeGroups .uint4b8 sampleColumn 2 1 2) :=
  (quantize_eq_ok_iff ..).mpr ⟨rfl, rfl, by decide, by decide, rfl, rfl⟩

/-- The smaller weight is off by less than the scale, which the larger one sets. -/
theorem quantize_error_le_scale_sampleColumn :
    ∃ q s r, quantize sampleColumn 2 1 .uint4b8 (-1) = .ok q ∧ q.scales[0]? = some s ∧
      q.reference[1]? = some r ∧ s.isFinite = true ∧ r.isFinite = true ∧
      |value (.ofBits 0xbfc00000) - value r| ≤ value s := by
  have hfinite : ∀ w ∈ sampleColumn, w.isFinite = true := by decide +kernel
  obtain ⟨w, s, r, hw, hs, hr, -, hreference, herror⟩ :=
    quantize_error_le_scale quantize_sampleColumn hfinite (by decide : 1 < 2) (by decide : 0 < 1)
  have hstored : s.isFinite = true := by
    have hscale : (quantizeGroups .uint4b8 sampleColumn 2 1 2).scales[0]?.map Float32.isFinite =
        some true := by
      decide +kernel
    obtain ⟨s', hs', hstored⟩ := Option.map_eq_some_iff.mp hscale
    rwa [Option.some.inj (hs.symm.trans hs')]
  obtain ⟨-, -, hlarge⟩ := herror hstored
  have hbound := hlarge ⟨0, by decide, ?_⟩
  · obtain rfl : Float32.ofBits 0xbfc00000 = w := Option.some.inj hw
    exact ⟨_, s, r, quantize_sampleColumn, hs, hr, hstored, hreference.mpr hstored, hbound⟩
  · have hthree : Single.datum (.ofBits 0x40400000) = .finite false 12582912 (-22) := by
      decide +kernel
    have hweight : groupWeight sampleColumn 1 2 0 0 0 = .ofBits 0x40400000 := rfl
    have hhighest : WeightType.uint4b8.highest = 7 := rfl
    change _ ≤ |value (groupWeight sampleColumn 1 2 0 0 0)|
    rw [hweight, Single.value_of_datum hthree, hhighest]
    norm_num [signedValue]

/-- A weight out of range has an infinite scale and no reference weight, and a small weight is
beyond the reach of a scale that is rounded down to the least number of half precision. -/
theorem quantize_error_exceeds_scale :
    (∃ q s r, quantize #[.ofBits 0x48ea6000] 1 1 .uint4b8 (-1) = .ok q ∧ q.scales[0]? = some s ∧
      q.reference[0]? = some r ∧ s.isFinite = false ∧ r.isFinite = false) ∧
    ∃ q s r, quantize #[.ofBits 0x35210fb0] 1 1 .uint4b8 (-1) = .ok q ∧ q.scales[0]? = some s ∧
      q.reference[0]? = some r ∧ s.isFinite = true ∧ r.isFinite = true ∧
      value s < |value (.ofBits 0x35210fb0) - value r| := by
  have hok (w : Float32) : quantize #[w] 1 1 .uint4b8 (-1) =
      .ok (quantizeGroups .uint4b8 #[w] 1 1 1) :=
    (quantize_eq_ok_iff ..).mpr ⟨rfl, rfl, by decide, by decide, rfl, rfl⟩
  constructor
  · have hscale : (quantizeGroups .uint4b8 #[.ofBits 0x48ea6000] 1 1 1).scales[0]?.map
        Float32.isFinite = some false := by
      decide +kernel
    have hreference : (quantizeGroups .uint4b8 #[.ofBits 0x48ea6000] 1 1 1).reference[0]?.map
        Float32.isFinite = some false := by
      decide +kernel
    obtain ⟨s, hs, hscale⟩ := Option.map_eq_some_iff.mp hscale
    obtain ⟨r, hr, hreference⟩ := Option.map_eq_some_iff.mp hreference
    exact ⟨_, s, r, hok _, hs, hr, hscale, hreference⟩
  · have hscale : (quantizeGroups .uint4b8 #[.ofBits 0x35210fb0] 1 1 1).scales[0]?.map
        Single.datum = some (.finite false 8388608 (-47)) := by
      decide +kernel
    have hreference : (quantizeGroups .uint4b8 #[.ofBits 0x35210fb0] 1 1 1).reference[0]?.map
        Single.datum = some (.finite false 14680064 (-45)) := by
      decide +kernel
    have hweight : Single.datum (.ofBits 0x35210fb0) = .finite false 10555312 (-44) := by
      decide +kernel
    obtain ⟨s, hs, hscale⟩ := Option.map_eq_some_iff.mp hscale
    obtain ⟨r, hr, hreference⟩ := Option.map_eq_some_iff.mp hreference
    refine ⟨_, s, r, hok _, hs, hr, Single.isFinite_iff_datum.mpr ⟨_, _, _, hscale⟩,
      Single.isFinite_iff_datum.mpr ⟨_, _, _, hreference⟩, ?_⟩
    rw [Single.value_of_datum hscale, Single.value_of_datum hreference,
      Single.value_of_datum hweight]
    norm_num [signedValue]

end Quantizer

end RoutedExperts
