import Mathlib
import RoutedExperts.Numeric.Scalar

/-!
# The order of numbers in single precision

A comparison of unpacked numbers looks at their kinds, then at the exponents and at last at the
significands. These three make up the `rank` of a number, so away from NaN the comparisons `<` and
`==` are those of a linear order (`Single.lt_iff_rank_lt`, `Single.beq_iff_rank_eq`).
-/

namespace RoutedExperts

namespace Single

open Float.Model (UnpackedFloat)

/-- The place of an unpacked number among the numbers: its kind, its exponent and its significand,
the last two negated below zero. -/
def unpackedRank : UnpackedFloat → ℤ ×ₗ ℤ ×ₗ ℤ
  | .infinity .negative => toLex (-2, toLex (0, 0))
  | .finite .negative m e _ => toLex (-1, toLex (-e, -(m : ℤ)))
  | .zero _ | .notANumber => toLex (0, toLex (0, 0))
  | .finite .positive m e _ => toLex (1, toLex (e, (m : ℤ)))
  | .infinity .positive => toLex (2, toLex (0, 0))

private theorem compare_toLex (k e m k' e' m' : ℤ) :
    compare (toLex (k, toLex (e, m))) (toLex (k', toLex (e', m'))) =
      (compare k k').then ((compare e e').then (compare m m')) := by
  rw [Prod.Lex.compare_def, compareLex, compareOn, compareOn, ofLex_toLex, ofLex_toLex,
    Prod.Lex.compare_def]
  rfl

private theorem compare_neg (a b : ℤ) : compare (-a) (-b) = (compare a b).swap := by
  have hanti : StrictAnti fun a : ℤ => -a := fun _ _ h => Int.neg_lt_neg h
  rw [Int.compare_swap, ← cmp_eq_compare, hanti.cmp_map_eq, cmp_eq_compare]

private theorem compare_natCast (m n : ℕ) : compare (m : ℤ) (n : ℤ) = compare m n := by
  have hmono : StrictMono fun m : ℕ => (m : ℤ) := fun _ _ h => Int.ofNat_lt.mpr h
  rw [← cmp_eq_compare, hmono.cmp_map_eq, cmp_eq_compare]

/-- Numbers are compared by their ranks. -/
theorem compare_unpackedRank {a b : UnpackedFloat} (ha : a.isNaN = false) (hb : b.isNaN = false) :
    a.compare b = some (compare (unpackedRank a) (unpackedRank b)) := by
  cases a with
  | notANumber => cases ha
  | infinity s =>
    cases b with
    | notANumber => cases hb
    | infinity s' => cases s <;> cases s' <;> rfl
    | zero s' => cases s <;> rfl
    | finite s' m' e' _ => cases s <;> cases s' <;> rfl
  | zero s =>
    cases b with
    | notANumber => cases hb
    | infinity s' => cases s' <;> rfl
    | zero s' => rfl
    | finite s' m' e' _ => cases s' <;> rfl
  | finite s m e _ =>
    cases b with
    | notANumber => cases hb
    | infinity s' => cases s <;> cases s' <;> rfl
    | zero s' => cases s <;> rfl
    | finite s' m' e' _ =>
      -- only here are exponents and significands looked at
      cases s with
      | negative =>
        cases s' with
        | positive => rfl
        | negative =>
          rw [UnpackedFloat.compare, unpackedRank, unpackedRank, compare_toLex, compare_neg e,
            compare_neg m, compare_natCast, Ordering.swap_then]
          rfl
      | positive =>
        cases s' with
        | negative => rfl
        | positive =>
          rw [UnpackedFloat.compare, unpackedRank, unpackedRank, compare_toLex, compare_natCast]
          rfl

/-- A NaN compares with nothing. -/
theorem compare_eq_none {a b : UnpackedFloat} (h : a.isNaN = true ∨ b.isNaN = true) :
    a.compare b = none := by
  rcases h with ha | hb
  · cases a with
    | notANumber => rfl
    | _ => cases ha
  · cases b with
    | notANumber => cases a <;> rfl
    | _ => cases hb

/-- The place of a number among the numbers. -/
def rank (x : Float32) : ℤ ×ₗ ℤ ×ₗ ℤ := unpackedRank x.toModel.unpack

variable {x y : Float32}

/-- Numbers are ordered as their unpacked forms compare. -/
theorem lt_iff_compare : x < y ↔ x.toModel.unpack.compare y.toModel.unpack = some .lt := by
  have hlt : x < y ↔ x.toModel.unpack.lt y.toModel.unpack = true := decide_eq_true_iff
  rw [hlt, UnpackedFloat.lt, beq_iff_eq]

/-- Numbers that are no NaN are ordered by rank. -/
theorem lt_iff_rank_lt (hx : x.isNaN = false) (hy : y.isNaN = false) :
    x < y ↔ rank x < rank y := by
  rw [lt_iff_compare, compare_unpackedRank hx hy, Option.some.injEq, compare_lt_iff_lt]
  rfl

/-- Numbers that are no NaN are equal exactly if they have one rank. -/
theorem beq_iff_rank_eq (hx : x.isNaN = false) (hy : y.isNaN = false) :
    (x == y) = true ↔ rank x = rank y := by
  have heq : (x == y) = x.toModel.unpack.beq y.toModel.unpack := rfl
  rw [heq, UnpackedFloat.beq, compare_unpackedRank hx hy, beq_iff_eq, Option.some.injEq,
    compare_eq_iff_eq]
  rfl

/-- A NaN is neither below nor above anything. -/
theorem not_lt_of_isNaN (h : x.isNaN = true ∨ y.isNaN = true) : ¬ x < y := by
  rw [lt_iff_compare, compare_eq_none h]
  exact nofun

/-- Numbers that are no NaN are weakly ordered by rank. -/
theorem le_iff_rank_le (hx : x.isNaN = false) (hy : y.isNaN = false) :
    x ≤ y ↔ rank x ≤ rank y := by
  have hle : x ≤ y ↔ x.toModel.unpack.le y.toModel.unpack = true := decide_eq_true_iff
  rw [hle, UnpackedFloat.le, compare_unpackedRank hx hy, Option.any_some, Ordering.isLE_iff_ne_gt,
    compare_gt_iff_gt, not_lt]
  rfl

/-- A number is not smaller than another one if it is at least as large, and a NaN never is. -/
theorem not_lt_iff : ¬ x < y ↔ x.isNaN = true ∨ y.isNaN = true ∨ y ≤ x := by
  by_cases hx : x.isNaN = true
  · simp only [hx, true_or, iff_true]
    exact not_lt_of_isNaN (.inl hx)
  · by_cases hy : y.isNaN = true
    · simp only [hy, true_or, or_true, iff_true]
      exact not_lt_of_isNaN (.inr hy)
    · rw [Bool.not_eq_true] at hx hy
      simp only [hx, hy, Bool.false_eq_true, false_or, lt_iff_rank_lt hx hy, le_iff_rank_le hy hx,
        not_lt]

/-! ### The larger of two numbers -/

/-- A number that takes the larger value is no NaN if it was none before. -/
theorem isNaN_greater (hx : x.isNaN = false) : (greater x y).isNaN = false := by
  simp only [greater, hx, Bool.false_eq_true, ite_false]
  split_ifs with hy
  · exact hx
  · rwa [Bool.not_eq_true] at hy
  · exact hx

/-- The larger of two numbers exceeds what one of them exceeds. -/
theorem lt_greater_iff {t : Float32} (hx : x.isNaN = false) :
    t < greater x y ↔ t < x ∨ t < y := by
  by_cases ht : t.isNaN = true
  · have hnot : ∀ z, ¬ t < z := fun z => not_lt_of_isNaN (.inl ht)
    simp only [hnot, or_self]
  · by_cases hy : y.isNaN = true
    · have hnot : ¬ t < y := not_lt_of_isNaN (.inr hy)
      simp only [greater, hx, hy, hnot, Bool.false_eq_true, ite_false, ite_true, or_false]
    · rw [Bool.not_eq_true] at ht hy
      simp only [greater, hx, hy, Bool.false_eq_true, ite_false, lt_iff_rank_lt hx hy,
        lt_iff_rank_lt ht hx, lt_iff_rank_lt ht hy]
      split_ifs with hlt
      · rw [lt_iff_rank_lt ht hy]
        exact ⟨.inr, fun h => h.elim (fun h => h.trans hlt) id⟩
      · rw [lt_iff_rank_lt ht hx]
        exact ⟨.inl, fun h => h.elim id fun h => h.trans_le (not_lt.mp hlt)⟩

end Single

end RoutedExperts
