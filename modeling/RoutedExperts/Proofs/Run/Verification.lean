import RoutedExperts.Proofs.Checks
import RoutedExperts.Proofs.Numeric.Distance
import RoutedExperts.Run.Workload

/-!
# Which results a run accepts

A run accepts a result whose largest relative error does not exceed the tolerance. The largest error
passes over a NaN, and a NaN exceeds nothing. So a tolerance that is a number bounds the deviations
at those places where the result is a number and the reference is finite, and at no others
(`Workload.tolerates_maxRelativeError_iff`).
-/

namespace RoutedExperts

namespace Reference

/-- How far a value is from the expected one, relative to the expected one or to one, whichever is
larger. -/
def deviation (actual expected : Float32) : Float32 :=
  (actual - expected).abs / Single.greater expected.abs 1

/-- The error exceeds a bound when the first error or a later deviation does. -/
theorem lt_foldl_deviation_iff (t : Float32) (pairs : List (Float32 × Float32)) {worst : Float32}
    (hworst : worst.isNaN = false) :
    t < pairs.foldl (fun worst (a, e) => Single.greater worst (deviation a e)) worst ↔
      t < worst ∨ ∃ p ∈ pairs, t < deviation p.1 p.2 := by
  induction pairs generalizing worst with
  | nil => simp
  | cons p pairs ih =>
    rw [List.foldl_cons, ih (Single.isNaN_greater hworst), Single.lt_greater_iff hworst]
    simp only [List.mem_cons, exists_eq_or_imp, or_assoc]

/-- The error exceeds a bound exactly if the bound is negative or some deviation exceeds it. -/
theorem lt_maxRelativeError_iff (t : Float32) (actual expected : List Float32) :
    t < maxRelativeError actual expected ↔
      t < 0 ∨ ∃ p ∈ actual.zip expected, t < deviation p.1 p.2 :=
  lt_foldl_deviation_iff t (actual.zip expected) (by decide)

end Reference

/-- Pairs of entries are entries at the same place. -/
theorem forall_mem_zip_iff {α β : Type} (l : List α) (l' : List β) (p : α → β → Prop) :
    (∀ x ∈ l.zip l', p x.1 x.2) ↔
      ∀ (i : Nat) a b, l[i]? = some a → l'[i]? = some b → p a b := by
  constructor
  · intro h i a b ha hb
    exact h (a, b) (List.mem_iff_getElem?.mpr ⟨i, List.getElem?_zip_eq_some.mpr ⟨ha, hb⟩⟩)
  · rintro h ⟨a, b⟩ hx
    obtain ⟨i, hi⟩ := List.mem_iff_getElem?.mp hx
    obtain ⟨ha, hb⟩ := List.getElem?_zip_eq_some.mp hi
    exact h i a b ha hb

namespace Workload

open Reference

/-- An error is tolerated unless it exceeds the tolerance. -/
theorem tolerates_iff (tolerance error : Float32) :
    tolerates tolerance error = true ↔ ¬ tolerance < error := by
  simp only [tolerates, Bool.not_eq_true', decide_eq_false_iff_not]

/-- A deviation does not exceed a tolerance that is a number exactly if it is at most the tolerance
or no number. -/
theorem not_lt_deviation_iff {tolerance : Float32} (ht : tolerance.isNaN = false) (a e : Float32) :
    ¬ tolerance < deviation a e ↔
      a.isNaN = true ∨ e.isFinite = false ∨ deviation a e ≤ tolerance := by
  have hnan : (deviation a e).isNaN = true ↔ a.isNaN = true ∨ e.isFinite = false :=
    Single.isNaN_distance_iff a e
  rw [Single.not_lt_iff, ht, hnan, or_assoc]
  simp only [Bool.false_eq_true, false_or]

/-- A result is tolerated if the tolerance is a NaN, or if it is not negative and bounds the
deviation at every place where the result is a number and the reference is finite. -/
theorem tolerates_maxRelativeError_iff (tolerance : Float32) (actual expected : List Float32) :
    tolerates tolerance (maxRelativeError actual expected) = true ↔
      tolerance.isNaN = true ∨ 0 ≤ tolerance ∧ ∀ (i : Nat) a e, actual[i]? = some a →
        expected[i]? = some e →
          a.isNaN = true ∨ e.isFinite = false ∨ deviation a e ≤ tolerance := by
  rw [tolerates_iff, lt_maxRelativeError_iff]
  cases ht : tolerance.isNaN with
  | true =>
    have hnot : ∀ x, ¬ tolerance < x := fun x => Single.not_lt_of_isNaN (.inl ht)
    simp [hnot]
  | false =>
    have hzero : (0 : Float32).isNaN = false := by decide
    have hsign : ¬ tolerance < 0 ↔ 0 ≤ tolerance := by
      rw [Single.not_lt_iff, ht, hzero]
      simp only [Bool.false_eq_true, false_or]
    simp only [Bool.false_eq_true, false_or, not_or, not_exists, not_and, hsign,
      not_lt_deviation_iff ht]
    rw [forall_mem_zip_iff actual expected fun a e =>
      a.isNaN = true ∨ e.isFinite = false ∨ deviation a e ≤ tolerance]

/-- One correct value, and a NaN where zero is expected. -/
def nanResult : List Float32 := [3, Float32.ofBits 0x7fc00000]

/-- Tolerated results need not deviate by at most the tolerance: a NaN where a finite number is
expected passes. -/
theorem tolerates_nanResult : ¬ ∀ (actual expected : List Float32) (tolerance : Float32),
    actual.length = expected.length →
      tolerates tolerance (maxRelativeError actual expected) = true →
        ∀ (i : Nat) a e, actual[i]? = some a → expected[i]? = some e →
          deviation a e ≤ tolerance := by
  intro h
  have hpassed : tolerates (Float32.ofBits 0x3a83126f) (maxRelativeError nanResult [3, 0]) =
      true := by decide +kernel
  have hle := h nanResult [3, 0] _ rfl hpassed 1 _ _ rfl rfl
  exact absurd hle (by decide +kernel)

end Workload

end RoutedExperts
