import Mathlib.Logic.Basic
import RoutedExperts.Proofs.Checks
import RoutedExperts.Quantization.Quantizer
import RoutedExperts.Quantization.ScaleLayout
import RoutedExperts.Quantization.Support

/-!
# Supported sizes

What the checks of the packed formats accept, and what is left of a group size when only the count
of scale groups is known. `Packable.groupSizeOfCount_eq` computes the group size that the count
implies: it is the given one, except that a group of all rows is no longer told from per-column
scaling. Since both have the stored order of per-column scales, the order survives
(`Support.ofGroupSize_impliedSize`).
-/

namespace RoutedExperts

namespace Support

/-- A shape is supported exactly if its sides are multiples of 64 and a positive group size divides
its rows. -/
theorem checkShape_eq_ok_iff (columns rows : Nat) (groupSize : Int) :
    checkShape columns rows groupSize = .ok () ↔
      columns % 64 = 0 ∧ rows % 64 = 0 ∧ (0 < groupSize → rows % groupSize.toNat = 0) := by
  simp only [checkShape, refuse_eq_ok_iff]
  simp only [granule, ne_eq, not_not, not_and, and_true]

/-- A number of groups implies a group size exactly if it divides the rows; one group stands for
whole columns, and other sizes keep their low bits. -/
theorem groupSizeOfCount_eq_ok_iff (rows groups : Nat) (groupSize : Int) :
    groupSizeOfCount rows groups = .ok groupSize ↔ 0 < groups ∧ rows % groups = 0 ∧
      (if groups = 1 then -1 else Int.bmod (rows / groups : Nat) (twoTo 32)) = groupSize := by
  rw [groupSizeOfCount, refuse_eq_ok_iff, not_or, not_not, Nat.pos_iff_ne_zero, and_assoc]
  generalize Int.bmod (rows / groups : Nat) (twoTo 32) = size
  split <;> rw [Except.ok.injEq]

/-- Without a zero point and on any device, a type is admitted with the listed group sizes. -/
theorem admits_eq_true_iff (type : WeightType) (groupSize : Int) :
    admits type groupSize false none = true ↔
      type.hasZeroPoint = false ∧ groupSize ∈ groupSizes := by
  cases type <;> simp [admits, WeightType.hasZeroPoint]

/-- Sizes of a matrix and its groups that a packed format has. -/
structure Packable (type : WeightType) (rows columns : Nat) (groupSize : Int) : Prop where
  biased : type.hasZeroPoint = false
  groupSize_mem : groupSize ∈ groupSizes
  columns_mod : columns % 64 = 0
  rows_mod : rows % 64 = 0
  divides : 0 < groupSize → rows % groupSize.toNat = 0
  rows_pos : 0 < rows
  columns_pos : 0 < columns

/-- The group size that the count of groups implies. -/
def impliedSize (rows : Nat) (groupSize : Int) : Int :=
  if Quantizer.groupRows rows groupSize = rows then -1 else groupSize

/-- A group of all rows is stored like a column without groups. -/
theorem ofGroupSize_impliedSize (rows : Nat) (groupSize : Int) :
    ScaleOrder.ofGroupSize rows (impliedSize rows groupSize) =
      ScaleOrder.ofGroupSize rows groupSize := by
  by_cases hall : Quantizer.groupRows rows groupSize = rows
  · have hgroup : ¬ (0 < groupSize ∧ groupSize < rows) := by
      unfold Quantizer.groupRows at hall
      split at hall <;> omega
    rw [impliedSize, if_pos hall, ScaleOrder.ofGroupSize, ScaleOrder.ofGroupSize, if_neg hgroup,
      if_neg (by omega)]
  · rw [impliedSize, if_neg hall]

namespace Packable

variable {type : WeightType} {rows columns : Nat} {groupSize : Int}

/-- A group of a supported shape has rows. -/
theorem groupRows_pos (h : Packable type rows columns groupSize) :
    0 < Quantizer.groupRows rows groupSize := by
  have hrows := h.rows_pos
  unfold Quantizer.groupRows
  split <;> omega

/-- The rows of a supported shape are whole groups. -/
theorem mod_groupRows (h : Packable type rows columns groupSize) :
    rows % Quantizer.groupRows rows groupSize = 0 := by
  unfold Quantizer.groupRows
  split
  · exact Nat.mod_self rows
  · exact h.divides (by omega)

/-- A group has at most the rows of the matrix. -/
theorem groupRows_le (h : Packable type rows columns groupSize) :
    Quantizer.groupRows rows groupSize ≤ rows :=
  Nat.le_of_dvd h.rows_pos (Nat.dvd_of_mod_eq_zero h.mod_groupRows)

/-- A supported shape has at least one group. -/
theorem groups_pos (h : Packable type rows columns groupSize) :
    0 < rows / Quantizer.groupRows rows groupSize :=
  Nat.div_pos h.groupRows_le h.groupRows_pos

/-- The rows of a group are read off the count of groups. -/
theorem div_groups (h : Packable type rows columns groupSize) :
    rows / (rows / Quantizer.groupRows rows groupSize) = Quantizer.groupRows rows groupSize :=
  Nat.div_div_self (Nat.dvd_of_mod_eq_zero h.mod_groupRows) (Nat.ne_of_gt h.rows_pos)

-- No supported group size leaves the range of signed 32-bit numbers.
private theorem bmod_groupSize {groupSize : Int} (hmem : groupSize ∈ groupSizes)
    (hpos : 0 < groupSize) : Int.bmod groupSize.toNat (twoTo 32) = groupSize := by
  simp only [groupSizes, List.mem_cons, List.not_mem_nil, or_false] at hmem
  rcases hmem with rfl | rfl | rfl | rfl
  · omega
  all_goals decide

/-- The number of groups of a supported shape implies a group size. -/
theorem groupSizeOfCount_eq (h : Packable type rows columns groupSize) :
    groupSizeOfCount rows (rows / Quantizer.groupRows rows groupSize) =
      .ok (impliedSize rows groupSize) := by
  rw [groupSizeOfCount_eq_ok_iff, h.div_groups]
  refine ⟨h.groups_pos,
    Nat.mod_eq_zero_of_dvd (Nat.div_dvd_of_dvd (Nat.dvd_of_mod_eq_zero h.mod_groupRows)), ?_⟩
  unfold impliedSize
  by_cases hall : Quantizer.groupRows rows groupSize = rows
  · rw [if_pos hall, hall, Nat.div_self h.rows_pos, if_pos rfl]
  · have hgroups : rows / Quantizer.groupRows rows groupSize ≠ 1 := by
      intro hone
      have hdiv := h.div_groups
      rw [hone, Nat.div_one] at hdiv
      exact hall hdiv.symm
    have hpos : 0 < groupSize := by
      unfold Quantizer.groupRows at hall
      split at hall <;> omega
    have hlength : Quantizer.groupRows rows groupSize = groupSize.toNat :=
      if_neg (by omega)
    rw [if_neg hall, if_neg hgroups, hlength]
    exact bmod_groupSize h.groupSize_mem hpos

/-- The implied group size is admitted where the given one was. -/
theorem admits_impliedSize (h : Packable type rows columns groupSize) :
    admits type (impliedSize rows groupSize) false none = true := by
  refine (admits_eq_true_iff ..).mpr ⟨h.biased, ?_⟩
  unfold impliedSize
  split
  · decide
  · exact h.groupSize_mem

/-- The implied group size divides the rows unless it stands for whole columns. -/
theorem divides_impliedSize (h : Packable type rows columns groupSize)
    (hpos : 0 < impliedSize rows groupSize) :
    rows % (impliedSize rows groupSize).toNat = 0 := by
  unfold impliedSize at hpos ⊢
  split at hpos
  · omega
  · rename_i hall
    rw [if_neg hall]
    exact h.divides hpos

end Packable

end Support

end RoutedExperts
