import RoutedExperts.Proofs.Quantization.Quantizer
import RoutedExperts.Proofs.Quantization.Support
import RoutedExperts.Proofs.Routing.Served
import RoutedExperts.Quantization.Settings

/-!
# Group sizes and counts of groups

A column is described by the size of its groups or by their count. The count is read off the size by
rounding up, the size off the count by an exact quotient that is kept as a signed 32-bit number. The
two agree as long as the quotient fits (`QuantSettings.splits_iff_of_groupSizeOfCount`), which it
always does where the count is that of a quantized matrix
(`QuantSettings.groupSizeOfCount_groups`).
-/

namespace RoutedExperts

namespace QuantSettings

/-- The settings split a column into so many groups, without a rest. -/
structure Splits (q : QuantSettings) (rows groups : Nat) : Prop where
  groups_eq : q.groups rows = groups
  fills : 0 < q.groupSize → q.groupSize * groups = rows

variable {q : QuantSettings} {rows groups : Nat}

/-- Whole columns are one group. -/
theorem groups_of_nonpos (h : q.groupSize ≤ 0) : q.groups rows = 1 := if_pos h

/-- Groups of a size that divides the column fill it. -/
theorem groups_of_mul (hpos : 0 < q.groupSize) :
    q.groups (groups * q.groupSize.toNat) = groups := by
  have hsize : 0 < q.groupSize.toNat := by omega
  rw [QuantSettings.groups, if_neg (by omega), Block.divUp, Nat.add_sub_assoc hsize, Nat.add_comm,
    Nat.add_mul_div_right _ _ hsize, Nat.div_eq_of_lt (by omega), Nat.zero_add]

/-- There are at most `k` groups exactly if `k` groups cover the rows. -/
theorem groups_le_iff (hpos : 0 < q.groupSize) (k : Nat) :
    q.groups rows ≤ k ↔ rows ≤ k * q.groupSize.toNat := by
  rw [QuantSettings.groups, if_neg (by omega), Block.divUp_le_iff (by omega)]

/-! ### From the count to the size -/

/-- A single group is per-column scaling. -/
theorem splits_one (h : q.groupSize = -1) : q.Splits rows 1 :=
  ⟨groups_of_nonpos (by omega), fun hpos => by omega⟩

/-- A size that fits signed 32 bits is kept. -/
theorem splits_of_quotient (hrows : 0 < rows) (hmod : rows % groups = 0)
    (hfits : rows / groups < twoTo 31)
    (hsize : Int.bmod (rows / groups : Nat) (twoTo 32) = q.groupSize) : q.Splits rows groups := by
  have hhalf : twoTo 31 = 2147483648 := rfl
  have hword : twoTo 32 = 4294967296 := rfl
  have hfill : rows / groups * groups = rows :=
    Nat.div_mul_cancel (Nat.dvd_of_mod_eq_zero hmod)
  have hpos : 0 < rows / groups := by
    apply Nat.pos_of_ne_zero
    intro hzero
    rw [hzero, Nat.zero_mul] at hfill
    omega
  have hquotient : q.groupSize = (rows / groups : Nat) := by
    rw [← hsize, Int.bmod_eq_of_le_mul_two] <;> omega
  refine ⟨?_, fun _ => ?_⟩
  · have hgroups := @groups_of_mul q groups (by omega)
    rwa [hquotient, Int.toNat_natCast, Nat.mul_comm groups, hfill] at hgroups
  · rw [hquotient]
    exact_mod_cast hfill

/-- A size that does not fit is replaced by a smaller one, of which more groups are needed. -/
theorem not_splits_of_quotient (hmod : rows % groups = 0) (hone : groups ≠ 1)
    (hpos : 0 < groups) (hlarge : twoTo 31 ≤ rows / groups)
    (hsize : Int.bmod (rows / groups : Nat) (twoTo 32) = q.groupSize) :
    ¬ q.Splits rows groups := by
  rintro ⟨hgroups, -⟩
  have hhalf : twoTo 31 = 2147483648 := rfl
  have hword : twoTo 32 = 4294967296 := rfl
  by_cases hsign : q.groupSize ≤ 0
  · exact hone ((groups_of_nonpos hsign).symm.trans hgroups).symm
  · have hbound : q.groupSize < 2147483648 := by
      have hlt := @Int.bmod_lt (rows / groups : Nat) (twoTo 32) (by omega)
      omega
    have hle : rows ≤ groups * q.groupSize.toNat :=
      (groups_le_iff (by omega) groups).mp (Nat.le_of_eq hgroups)
    have hfill : groups * (rows / groups) = rows :=
      Nat.mul_div_cancel' (Nat.dvd_of_mod_eq_zero hmod)
    have hshorter : groups * q.groupSize.toNat < groups * (rows / groups) :=
      Nat.mul_lt_mul_of_pos_left (by omega) hpos
    omega

/-- The size of a count of groups splits the column into these groups exactly if there is one group
or the size fits signed 32 bits. -/
theorem splits_iff_of_groupSizeOfCount (hrows : 0 < rows)
    (h : Support.groupSizeOfCount rows groups = .ok q.groupSize) :
    q.Splits rows groups ↔ groups = 1 ∨ rows / groups < twoTo 31 := by
  obtain ⟨hpos, hmod, hsize⟩ := (Support.groupSizeOfCount_eq_ok_iff ..).mp h
  by_cases hone : groups = 1
  · subst hone
    rw [if_pos rfl] at hsize
    exact iff_of_true (splits_one hsize.symm) (.inl rfl)
  · rw [if_neg hone] at hsize
    constructor
    · intro hsplits
      by_contra hnot
      rw [not_or, Nat.not_lt] at hnot
      exact not_splits_of_quotient hmod hone hpos hnot.2 hsize hsplits
    · rintro (hgroups | hfits)
      · exact absurd hgroups hone
      · exact splits_of_quotient hrows hmod hfits hsize

/-! ### From the size to the count -/

variable {weights : Array Float32} {columns : Nat} {type : WeightType} {r : Quantized}

/-- The groups of a quantized matrix are those of its settings. -/
theorem groups_eq_of_quantize
    (h : Quantizer.quantize weights rows columns type q.groupSize = .ok r) :
    q.groups rows = r.groups := by
  obtain ⟨-, -, -, hpos, hmod, rfl⟩ := (Quantizer.quantize_eq_ok_iff ..).mp h
  change q.groups rows = rows / Quantizer.groupRows rows q.groupSize
  unfold Quantizer.groupRows at hpos hmod ⊢
  split_ifs at hpos hmod ⊢ with hsign
  · rw [groups_of_nonpos hsign, Nat.div_self hpos]
  · have hgroups := @groups_of_mul q (rows / q.groupSize.toNat) (by omega)
    rwa [Nat.div_mul_cancel (Nat.dvd_of_mod_eq_zero hmod)] at hgroups

/-- The count of groups of a quantized matrix gives the group size back, and `-1` for one group. -/
theorem groupSizeOfCount_groups (hfits : q.groupSize < twoTo 31)
    (h : Quantizer.quantize weights rows columns type q.groupSize = .ok r) :
    Support.groupSizeOfCount rows r.groups = .ok (if r.groups = 1 then -1 else q.groupSize) ∧
      (r.groups ≠ 1 → 0 < q.groupSize) := by
  obtain ⟨-, -, hle, hpos, hmod, rfl⟩ := (Quantizer.quantize_eq_ok_iff ..).mp h
  change Support.groupSizeOfCount rows (rows / Quantizer.groupRows rows q.groupSize) = .ok
    (if rows / Quantizer.groupRows rows q.groupSize = 1 then -1 else q.groupSize) ∧
      (rows / Quantizer.groupRows rows q.groupSize ≠ 1 → 0 < q.groupSize)
  have hdvd := Nat.dvd_of_mod_eq_zero hmod
  have hsign : rows / Quantizer.groupRows rows q.groupSize ≠ 1 → 0 < q.groupSize := by
    intro hone
    by_contra hnot
    rw [Quantizer.groupRows, if_pos (by omega), Nat.div_self (by omega)] at hone
    exact hone rfl
  refine ⟨?_, hsign⟩
  rw [Support.groupSizeOfCount_eq_ok_iff,
    Nat.div_div_self hdvd (Nat.ne_of_gt (Nat.lt_of_lt_of_le hpos hle))]
  refine ⟨Nat.div_pos hle hpos, Nat.mod_eq_zero_of_dvd (Nat.div_dvd_of_dvd hdvd), ?_⟩
  split_ifs with hone
  · rfl
  · have hsize := hsign hone
    have hhalf : twoTo 31 = 2147483648 := rfl
    have hword : twoTo 32 = 4294967296 := rfl
    rw [Quantizer.groupRows, if_neg (by omega), Int.toNat_of_nonneg (by omega),
      Int.bmod_eq_of_le_mul_two] <;> omega

/-! ### Both directions -/

/-- A count of groups and its group size determine each other, except that the size of a count is
lost where it does not fit signed 32 bits. Counts of quantized matrices are never affected: there
the count gives the size back, with `-1` in its place exactly if there is one group. -/
theorem groupSize_determines_groups (rows : Nat) :
    (∀ (groups : Nat) (q : QuantSettings), 0 < rows →
      Support.groupSizeOfCount rows groups = .ok q.groupSize →
        (q.Splits rows groups ↔ groups = 1 ∨ rows / groups < twoTo 31)) ∧
    ∀ (weights : Array Float32) (columns : Nat) (type : WeightType) (q : QuantSettings)
      (r : Quantized), q.groupSize < twoTo 31 →
        Quantizer.quantize weights rows columns type q.groupSize = .ok r →
          q.groups rows = r.groups ∧ ∃ size, Support.groupSizeOfCount rows r.groups = .ok size ∧
            (size = -1 ↔ r.groups = 1) ∧ (r.groups ≠ 1 → size = q.groupSize) := by
  refine ⟨fun groups q hrows h => splits_iff_of_groupSizeOfCount hrows h, ?_⟩
  intro weights columns type q r hfits h
  obtain ⟨hcount, hsign⟩ := groupSizeOfCount_groups hfits h
  refine ⟨groups_eq_of_quantize h, _, hcount, ?_, fun hone => if_neg hone⟩
  by_cases hone : r.groups = 1
  · exact iff_of_true (if_pos hone) hone
  · have hpos := hsign hone
    rw [if_neg hone]
    exact iff_of_false (by omega) hone

/-- Six weights in one column are quantized in three groups of two. -/
theorem quantize_pairs : Quantizer.quantize #[1, 2, 3, 4, 5, 6] 6 1 .uint8b128 (int8 2).groupSize =
    .ok (Quantizer.quantizeGroups .uint8b128 #[1, 2, 3, 4, 5, 6] 6 1 2) :=
  (Quantizer.quantize_eq_ok_iff ..).mpr ⟨rfl, rfl, by decide, by decide, rfl, rfl⟩

/-- Two groups of the largest size that fits, and three pairs of rows. -/
theorem groupSize_determines_groups_pairs :
    (int4 2147483647).Splits 4294967294 2 ∧ (int8 2).groups 6 = 3 ∧
      ∃ size, Support.groupSizeOfCount 6 3 = .ok size ∧ size = 2 := by
  obtain ⟨hsize, -⟩ := groupSize_determines_groups 4294967294
  obtain ⟨-, hcount⟩ := groupSize_determines_groups 6
  obtain ⟨hgroups, size, hok, -, hback⟩ := hcount _ 1 .uint8b128 (int8 2) _ (by decide)
    quantize_pairs
  exact ⟨(hsize 2 (int4 2147483647) (by decide) (by decide)).mpr (.inr (by decide)), hgroups, size,
    hok, hback (by decide)⟩

/-- The size of a count need not split the column into that many groups: of two groups with
`2 ^ 32 + 128` rows, only 128 rows are kept. -/
theorem groupSizeOfCount_wraps : ¬ ∀ (rows groups : Nat) (q : QuantSettings), 0 < rows →
    rows < twoTo 64 → groups < twoTo 64 →
      Support.groupSizeOfCount rows groups = .ok q.groupSize → q.Splits rows groups := by
  intro h
  have hsplits := h 8589934848 2 (int4 128) (by decide) (by decide) (by decide) (by decide)
  exact absurd hsplits.groups_eq (by decide)

end QuantSettings

end RoutedExperts
