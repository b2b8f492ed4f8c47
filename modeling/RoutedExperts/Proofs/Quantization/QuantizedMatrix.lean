import RoutedExperts.Proofs.Numeric.SpecialValues
import RoutedExperts.Proofs.Quantization.Quantizer
import RoutedExperts.Proofs.Quantization.WeightLayout

/-!
# The entries of a quantized matrix

A matrix is quantized one group of a column at a time: `Quantizer.groupWeight` are the weights of a
group, `Quantizer.groupLevel` is the level of one of them in the scale of the group, and
`Quantizer.Grouped` says where a quantized matrix keeps both. Stored values and scales are in range
whatever the weights are (`Quantizer.quantize_in_range`), a group is quantized as if it were a
matrix of its own (`Quantizer.quantize_group_alone`), and the reference weights are what stored
values and scales stand for (`Quantizer.reference_alike_dequantize`).
-/

namespace RoutedExperts

namespace Quantizer

/-! ### Groups of a column -/

/-- The level of row `i` of a group. -/
def groupLevel (type : WeightType) (weight : Nat → Float32) (count i : Nat) : Level :=
  .nearest type (weight i / groupScale type weight count)

/-- The reference weight of row `i` of a group. -/
def groupReference (type : WeightType) (weight : Nat → Float32) (count i : Nat) : Float32 :=
  (groupLevel type weight count i).toSingle * groupScale type weight count

section

variable (type : WeightType) {weight weight' : Nat → Float32} {count : Nat}
  (h : ∀ i < count, weight i = weight' i)

include h

/-- The scale of a group depends on the weights of the group only. -/
theorem groupScale_congr : groupScale type weight count = groupScale type weight' count := by
  have hextremes : extremes weight count = extremes weight' count := by
    simp only [extremes]
    induction count with
    | zero => rfl
    | succ count ih =>
      rw [Nat.fold_succ, Nat.fold_succ, ih fun i hi => h i (Nat.lt_succ_of_lt hi),
        h count (Nat.lt_succ_self count)]
  rw [groupScale, groupScale, hextremes]

/-- The level of a weight depends on the weights of its group only. -/
theorem groupLevel_congr {i : Nat} (hi : i < count) :
    groupLevel type weight count i = groupLevel type weight' count i := by
  rw [groupLevel, groupLevel, groupScale_congr type h, h i hi]

end

section

variable (weights : Array Float32) (columns length g n : Nat)

/-- The weights of group `g` in column `n`. -/
def groupWeight (i : Nat) : Float32 := weights.getD ((g * length + i) * columns + n) 0

/-- The weights of group `g` in column `n`, as a matrix of one column. -/
def groupColumn : Array Float32 :=
  .ofFn fun i : Fin length => groupWeight weights columns length g n i

/-- A group is the only group of its matrix of one column. -/
theorem groupWeight_groupColumn {i : Nat} (hi : i < length) :
    groupWeight (groupColumn weights columns length g n) 1 length 0 0 i =
      groupWeight weights columns length g n i := by
  rw [groupWeight, Nat.zero_mul, Nat.zero_add, Nat.mul_one, Nat.add_zero, groupColumn,
    getD_ofFn _ hi]

end

/-! ### Quantized matrices -/

/-- A quantized matrix with groups of `length` rows, which make up all its rows. -/
structure Grouped (weights : Array Float32) (rows columns : Nat) (type : WeightType)
    (q : Quantized) (length : Nat) : Prop where
  biased : type.hasZeroPoint = false
  size_weights : weights.size = rows * columns
  length_pos : 0 < length
  groups_mul : q.groups * length = rows
  eq_quantizeGroups : quantizeGroups type weights rows columns length = q

/-- The matrix holds a quantized column as group `g` of its column `n`. -/
structure HoldsGroup (q : Quantized) (columns length g n : Nat) (part : Quantized) : Prop where
  size_scales : part.scales.size = 1
  size_values : part.values.size = length
  size_reference : part.reference.size = length
  scale_eq : q.scales[g * columns + n]? = part.scales[0]?
  value_eq : ∀ i < length, q.values[(g * length + i) * columns + n]? = part.values[i]?
  reference_eq : ∀ i < length, q.reference[(g * length + i) * columns + n]? = part.reference[i]?

/-- A quantized matrix has been quantized in groups of equally many rows. -/
theorem grouped_of_quantize {weights : Array Float32} {rows columns : Nat} {type : WeightType}
    {groupSize : Int} {q : Quantized}
    (h : quantize weights rows columns type groupSize = .ok q) :
    Grouped weights rows columns type q (rows / q.groups) := by
  obtain ⟨hbiased, hsize, hle, hpos, hmod, rfl⟩ := (quantize_eq_ok_iff ..).mp h
  have hdvd := Nat.dvd_of_mod_eq_zero hmod
  have hlength : rows / (rows / groupRows rows groupSize) = groupRows rows groupSize :=
    Nat.div_div_self hdvd (Nat.ne_of_gt (Nat.lt_of_lt_of_le hpos hle))
  simp only [quantizeGroups]
  rw [hlength]
  exact ⟨hbiased, hsize, hpos, Nat.div_mul_cancel hdvd, rfl⟩

namespace Grouped

variable {weights : Array Float32} {rows columns length : Nat} {type : WeightType} {q : Quantized}
  (h : Grouped weights rows columns type q length)

include h

/-- A matrix of one group is quantized as a whole. -/
theorem quantize_eq (hone : length = rows) : quantize weights rows columns type (-1) = .ok q := by
  subst hone
  exact (quantize_eq_ok_iff ..).mpr ⟨h.biased, h.size_weights, Nat.le_refl _, h.length_pos,
    Nat.mod_self _, h.eq_quantizeGroups⟩

theorem size_scales : q.scales.size = q.groups * columns := by
  rw [← h.eq_quantizeGroups, size_scales_quantizeGroups]
  rfl

theorem size_values : q.values.size = rows * columns := by
  rw [← h.eq_quantizeGroups, size_values_quantizeGroups]

theorem size_reference : q.reference.size = rows * columns := by
  rw [← h.eq_quantizeGroups, quantizeGroups, Array.size_ofFn]

/-- Every entry of the matrix stands in one row of one group in one column. -/
theorem existsUnique_place {p : Nat} (hp : p < rows * columns) :
    ∃! place : Fin q.groups × Fin length × Fin columns,
      (place.1 * length + place.2.1) * columns + place.2.2 = p := by
  obtain ⟨hrow, hn⟩ := row_lt_column_lt hp
  rw [← h.groups_mul] at hrow
  obtain ⟨hg, hi⟩ := row_lt_column_lt hrow
  refine ⟨(⟨_, hg⟩, ⟨_, hi⟩, ⟨_, hn⟩), ?_, ?_⟩
  · simp only [div_mul_add_mod]
  · rintro ⟨g, i, n⟩ rfl
    simp only [rowMajor_div _ n.isLt, rowMajor_mod _ n.isLt, rowMajor_div _ i.isLt,
      rowMajor_mod _ i.isLt]

section

variable {g n i : Nat} (hg : g < q.groups) (hn : n < columns)

include hg hn

/-- The scale of group `g` in column `n` is that of the weights there. -/
theorem getElem?_scales :
    q.scales[g * columns + n]? =
      some (groupScale type (groupWeight weights columns length g n) length) := by
  obtain ⟨_, _, _, _, rfl⟩ := h
  have hgroup : g * columns + n < rows / length * columns := rowMajor_lt hg hn
  simp only [quantizeGroups, Array.getElem?_ofFn, hgroup, dite_true, rowMajor_div g hn,
    rowMajor_mod g hn]
  rfl

variable (hi : i < length)

include hi

/-- Row `i` of a group of a column is in the matrix. -/
theorem place_lt : (g * length + i) * columns + n < rows * columns := by
  rw [← h.groups_mul]
  exact rowMajor_lt (rowMajor_lt hg hi) hn

/-- The value in row `i` of a group is the level of the weight there, stored. -/
theorem getElem?_values : q.values[(g * length + i) * columns + n]? =
    some ((groupLevel type (groupWeight weights columns length g n) length i).store type) := by
  have hplace := h.place_lt hg hn hi
  obtain ⟨_, _, _, _, rfl⟩ := h
  have hgroup : g * columns + n < rows / length * columns := rowMajor_lt hg hn
  simp only [quantizeGroups, Array.getElem?_map, Array.getElem?_ofFn, hplace, dite_true,
    Option.map_some, rowMajor_div _ hn, rowMajor_mod _ hn, rowMajor_div g hi, getD_ofFn _ hgroup]
  rfl

/-- The reference weight in row `i` of a group is that of the group alone. -/
theorem getElem?_reference : q.reference[(g * length + i) * columns + n]? =
    some (groupReference type (groupWeight weights columns length g n) length i) := by
  have hplace := h.place_lt hg hn hi
  obtain ⟨_, _, _, _, rfl⟩ := h
  have hgroup : g * columns + n < rows / length * columns := rowMajor_lt hg hn
  simp only [quantizeGroups, Array.getElem?_ofFn, hplace, dite_true, rowMajor_div _ hn,
    rowMajor_mod _ hn, rowMajor_div g hi, getD_ofFn _ hgroup, getD_ofFn _ hplace]
  rfl

end

/-- A group is a matrix of one group. -/
theorem grouped_groupColumn (g n : Nat) :
    Grouped (groupColumn weights columns length g n) length 1 type
      (quantizeGroups type (groupColumn weights columns length g n) length 1 length) length where
  biased := h.biased
  size_weights := by rw [groupColumn, Array.size_ofFn, Nat.mul_one]
  length_pos := h.length_pos
  groups_mul := Nat.div_mul_cancel (Nat.dvd_refl length)
  eq_quantizeGroups := rfl

/-- A group of a quantized matrix is what the group is quantized to as a matrix of its own. -/
theorem holdsGroup {g n : Nat} (hg : g < q.groups) (hn : n < columns) :
    HoldsGroup q columns length g n
      (quantizeGroups type (groupColumn weights columns length g n) length 1 length) := by
  have halone := h.grouped_groupColumn g n
  have hgroup : 0 < length / length := Nat.div_pos (Nat.le_refl _) h.length_pos
  have hcolumn : 0 < 1 := Nat.one_pos
  have hsame := fun i (hi : i < length) => groupWeight_groupColumn weights columns length g n hi
  refine ⟨?_, ?_, ?_, ?_, ?_, ?_⟩
  · rw [halone.size_scales, Nat.mul_one]
    exact Nat.div_self h.length_pos
  · rw [halone.size_values, Nat.mul_one]
  · rw [halone.size_reference, Nat.mul_one]
  · have hscale := halone.getElem?_scales hgroup hcolumn
    rw [groupScale_congr type hsame, Nat.zero_mul, Nat.zero_add] at hscale
    rw [h.getElem?_scales hg hn, hscale]
  · intro i hi
    have hvalue := halone.getElem?_values hgroup hcolumn hi
    rw [groupLevel_congr type hsame hi, Nat.zero_mul, Nat.zero_add, Nat.mul_one,
      Nat.add_zero] at hvalue
    rw [h.getElem?_values hg hn hi, hvalue]
  · intro i hi
    have hreference := halone.getElem?_reference hgroup hcolumn hi
    rw [groupReference, groupLevel_congr type hsame hi, groupScale_congr type hsame,
      ← groupReference, Nat.zero_mul, Nat.zero_add, Nat.mul_one, Nat.add_zero] at hreference
    rw [h.getElem?_reference hg hn hi, hreference]

end Grouped

end Quantizer

/-! ### What a level stands for -/

namespace Level

/-- Only a NaN is near to no level. -/
theorem isNaN_of_nearest {type : WeightType} {quotient : Float32}
    (h : nearest type quotient = undefined) : quotient.isNaN = true := by
  unfold nearest at h
  split at h
  · rename_i hnan
    exact Single.isNaN_of_datum_eq_nan hnan
  · cases h
  · cases h

/-- A level other than zero is the number of its integer. -/
theorem toSingle_steps {negative : Bool} {count : Nat} (hcount : count ≠ 0) :
    (steps negative count).toSingle = Single.ofInt (steps negative count).toInt := by
  cases negative with
  | false =>
    have hsign : ¬ (count : Int) < 0 := by omega
    simp only [toSingle, toInt, Single.ofInt, Datum.ofInt, Bool.false_eq_true, ite_false, hsign,
      decide_false, Int.natAbs_natCast]
  | true =>
    have hsign : -(count : Int) < 0 := by omega
    simp only [toSingle, toInt, Single.ofInt, Datum.ofInt, ite_true, hsign, decide_true,
      Int.natAbs_neg, Int.natAbs_natCast]

/-- In a positive scale, the level of a weight and its stored form without the bias stand for the
same number. -/
theorem alike_store_nearest (type : WeightType) {weight scale : Float32}
    (hweight : weight.isNaN = false) (hscale : 0 < scale) :
    Single.Alike ((nearest type (weight / scale)).toSingle * scale)
      (Single.ofInt (((nearest type (weight / scale)).store type).toNat - type.bias) * scale) := by
  rw [(fits_nearest type (weight / scale)).toNat_store.1, Int.add_sub_cancel]
  cases hlevel : nearest type (weight / scale) with
  | undefined =>
    -- the scale is infinite, so no steps of it are no number either
    have hinfinite := Single.infinite_of_isNaN_div hweight hscale (isNaN_of_nearest hlevel)
    exact .inr ⟨Single.isNaN_mul_of_isNaN rfl, Single.isNaN_zero_mul_infinity rfl hinfinite⟩
  | steps negative count =>
    by_cases hcount : count = 0
    · -- only the stored form loses the sign of a zero
      subst hcount
      cases negative with
      | false => exact .refl _
      | true => exact Single.alike_zero_mul rfl rfl hscale
    · rw [toSingle_steps hcount]
      exact .refl _

end Level

/-! ### Quantizing a matrix -/

namespace Quantizer

variable {weights : Array Float32} {rows columns : Nat} {type : WeightType} {groupSize : Int}
  {q : Quantized}

/-- Stored values fit their weight type, so that masking keeps them and packing loses nothing, and
scales are positive half-precision numbers, whatever the weights are. -/
theorem quantize_in_range (h : quantize weights rows columns type groupSize = .ok q) :
    q.values.size = rows * columns ∧
    (∀ v ∈ q.values, v.toNat ≤ type.mask ∧ v &&& type.mask.toUInt32 = v) ∧
    (∀ words, WeightLayout.pack q.values rows columns type = .ok words →
      WeightLayout.unpack words rows columns type = .ok q.values) ∧
    q.scales.size = q.groups * columns ∧
    ∀ s ∈ q.scales, s.isNaN = false ∧ 0 < s ∧ (Half.ofSingle s).toSingle = s := by
  have hgrouped := grouped_of_quantize h
  have hmask : ∀ v ∈ q.values, v.toNat ≤ type.mask := by
    intro v hv
    rw [← hgrouped.eq_quantizeGroups] at hv
    exact toNat_le_mask_of_mem_values _ _ _ _ _ hv
  have hfits : ∀ v ∈ q.values, v.toNat < twoTo type.bits :=
    fun v hv => Nat.lt_of_le_of_lt (hmask v hv) type.mask_lt
  refine ⟨hgrouped.size_values, ?_, ?_, hgrouped.size_scales, ?_⟩
  · intro v hv
    refine ⟨hmask v hv, UInt32.toNat_inj.mp ?_⟩
    rw [type.toNat_and_mask, Nat.mod_eq_of_lt (hfits v hv)]
  · intro words hwords
    obtain ⟨htiled, hsize, rfl⟩ := (WeightLayout.pack_eq_ok_iff ..).mp hwords
    refine (WeightLayout.unpack_eq_ok_iff ..).mpr ⟨htiled, WeightLayout.size_packWords ..,
      WeightLayout.unpackWords_packWords htiled hsize fun i hi => ?_⟩
    rw [← Array.getElem_eq_getD (h := hsize ▸ hi)]
    exact hfits _ (Array.getElem_mem _)
  · intro s hs
    rw [← hgrouped.eq_quantizeGroups] at hs
    obtain ⟨scale, rfl⟩ := exists_storableScale_of_mem_scales _ _ _ _ _ hs
    have hpos := pos_storableScale scale
    exact ⟨Single.isNaN_of_pos hpos, hpos, toSingle_ofSingle_storableScale scale⟩

/-- A matrix with a NaN, a negative zero, a subnormal number, both infinities and the largest
number. -/
def sampleMatrix : Array Float32 :=
  #[.ofBits 0x7fc00000, .ofBits 0x80000000, .ofBits 0x00000001, .ofBits 0x7f800000,
    .ofBits 0xff800000, .ofBits 0x7f7fffff, .ofBits 0x3f800000, .ofBits 0xc0200000]

/-- The sample matrix is quantized in two groups per column. -/
theorem quantize_sampleMatrix : quantize sampleMatrix 4 2 .uint4b8 2 =
    .ok (quantizeGroups .uint4b8 sampleMatrix 4 2 2) :=
  (quantize_eq_ok_iff ..).mpr ⟨rfl, rfl, by decide, by decide, rfl, rfl⟩

/-- Of the sample matrix, with its NaN and its infinities, all values are within the mask and all
scales are positive numbers of half precision. -/
theorem quantize_in_range_sampleMatrix :
    ∃ q, quantize sampleMatrix 4 2 .uint4b8 2 = .ok q ∧ q.values.size = 8 ∧
      (∀ v ∈ q.values, v.toNat ≤ 15 ∧ v &&& 15 = v) ∧ q.scales.size = 4 ∧
      ∀ s ∈ q.scales, s.isNaN = false ∧ 0 < s ∧ (Half.ofSingle s).toSingle = s := by
  obtain ⟨hsize, hvalues, _, hcount, hscales⟩ := quantize_in_range quantize_sampleMatrix
  exact ⟨_, quantize_sampleMatrix, hsize, hvalues, hcount, hscales⟩

/-- The groups of a quantized matrix make up all its entries, and each group of a column is
quantized as if it were a matrix of its own. -/
theorem quantize_group_alone (h : quantize weights rows columns type groupSize = .ok q) :
    q.groups * (rows / q.groups) = rows ∧
    q.scales.size = q.groups * columns ∧ q.values.size = rows * columns ∧
    q.reference.size = rows * columns ∧
    (∀ p < rows * columns,
      ∃! place : Fin q.groups × Fin (rows / q.groups) × Fin columns,
        (place.1 * (rows / q.groups) + place.2.1) * columns + place.2.2 = p) ∧
    ∀ g < q.groups, ∀ n < columns, ∃ part,
      quantize (groupColumn weights columns (rows / q.groups) g n) (rows / q.groups) 1 type (-1) =
        .ok part ∧
      HoldsGroup q columns (rows / q.groups) g n part := by
  have hgrouped := grouped_of_quantize h
  refine ⟨hgrouped.groups_mul, hgrouped.size_scales, hgrouped.size_values,
    hgrouped.size_reference, fun p hp => hgrouped.existsUnique_place hp, ?_⟩
  intro g hg n hn
  exact ⟨_, (hgrouped.grouped_groupColumn g n).quantize_eq rfl, hgrouped.holdsGroup hg hn⟩

/-- In the sample matrix the last group of the last column is quantized as if it were the matrix. -/
theorem quantize_group_alone_sampleMatrix :
    ∃ q part, quantize sampleMatrix 4 2 .uint4b8 2 = .ok q ∧ q.groups = 2 ∧
      quantize (groupColumn sampleMatrix 2 2 1 1) 2 1 .uint4b8 (-1) = .ok part ∧
      HoldsGroup q 2 2 1 1 part := by
  obtain ⟨_, _, _, _, _, hgroups⟩ := quantize_group_alone quantize_sampleMatrix
  obtain ⟨part, hpart, hholds⟩ := hgroups 1 (by decide) 1 (by decide)
  exact ⟨_, part, quantize_sampleMatrix, rfl, hpart, hholds⟩

/-- A reference weight is the stored value without its bias times the scale of its group, unless
the weight is a NaN. -/
theorem reference_alike_dequantize (h : quantize weights rows columns type groupSize = .ok q)
    {k n : Nat} (hk : k < rows) (hn : n < columns) {w : Float32}
    (hw : weights[k * columns + n]? = some w) (hnumber : w.isNaN = false) :
    ∃ value scale reference, q.values[k * columns + n]? = some value ∧
      q.scales[k / (rows / q.groups) * columns + n]? = some scale ∧
      q.reference[k * columns + n]? = some reference ∧
      Single.Alike reference (Single.ofInt (value.toNat - type.bias) * scale) := by
  have hgrouped := grouped_of_quantize h
  rw [← hgrouped.groups_mul] at hk
  obtain ⟨hg, hi⟩ := row_lt_column_lt hk
  have hvalue := hgrouped.getElem?_values hg hn hi
  have hreference := hgrouped.getElem?_reference hg hn hi
  rw [div_mul_add_mod] at hvalue hreference
  refine ⟨_, _, _, hvalue, hgrouped.getElem?_scales hg hn, hreference, ?_⟩
  have hweight : groupWeight weights columns (rows / q.groups) (k / (rows / q.groups)) n
      (k % (rows / q.groups)) = w := by
    rw [groupWeight, div_mul_add_mod, Array.getD_eq_getD_getElem?, hw, Option.getD_some]
  rw [groupReference, groupLevel, hweight]
  exact Level.alike_store_nearest type hnumber (pos_storableScale _)

/-- An infinite weight, in a group of an infinite scale. -/
theorem reference_alike_dequantize_sampleMatrix :
    ∃ q value scale reference, quantize sampleMatrix 4 2 .uint4b8 2 = .ok q ∧
      sampleMatrix[3]? = some (.ofBits 0x7f800000) ∧
      q.values[3]? = some value ∧ q.scales[1]? = some scale ∧ q.reference[3]? = some reference ∧
      Single.Alike reference (Single.ofInt (value.toNat - 8) * scale) := by
  obtain ⟨value, scale, reference, hentries⟩ :=
    reference_alike_dequantize quantize_sampleMatrix (by decide : 1 < 4) (by decide : 1 < 2)
      (rfl : sampleMatrix[3]? = some (.ofBits 0x7f800000)) rfl
  exact ⟨_, value, scale, reference, quantize_sampleMatrix, rfl, hentries⟩

end Quantizer

end RoutedExperts
