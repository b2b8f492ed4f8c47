import RoutedExperts.Numeric.Format

/-!
# Powers of two

Shifts are products and quotients with powers of two, and the logarithm of a number names the power
that its leading digit stands for.
-/

namespace RoutedExperts

theorem twoTo_pos (k : Nat) : 0 < twoTo k := by
  rw [twoTo, Nat.one_shiftLeft]
  exact Nat.two_pow_pos k

theorem twoTo_add (a b : Nat) : twoTo (a + b) = twoTo a * twoTo b := by
  simp only [twoTo, Nat.one_shiftLeft, Nat.pow_add]

theorem twoTo_succ (k : Nat) : twoTo (k + 1) = 2 * twoTo k := by
  rw [twoTo_add, Nat.mul_comm]
  rfl

/-- A shift to the left multiplies by a power of two. -/
theorem shiftLeft_eq_mul_twoTo (n k : Nat) : n <<< k = n * twoTo k := by
  rw [Nat.shiftLeft_eq, twoTo, Nat.one_shiftLeft]

/-- A shift to the right divides by a power of two, towards zero. -/
theorem shiftRight_eq_div_twoTo (n k : Nat) : n >>> k = n / twoTo k := by
  rw [Nat.shiftRight_eq_div_pow, twoTo, Nat.one_shiftLeft]

/-- A positive number lies between two neighbouring powers of two. -/
theorem twoTo_log2_le {n : Nat} (h : n ≠ 0) : twoTo n.log2 ≤ n := by
  rw [twoTo, Nat.one_shiftLeft]
  exact Nat.log2_self_le h

/-- A number is below the power of two behind its logarithm. -/
theorem lt_twoTo_log2_succ (n : Nat) : n < twoTo (n.log2 + 1) := by
  rw [twoTo, Nat.one_shiftLeft]
  exact Nat.lt_log2_self

/-- The logarithm is the exponent of the power of two at or below a number, if the next one is above
it. -/
theorem log2_eq_of_twoTo_le {n k : Nat} (hlow : twoTo k ≤ n) (hhigh : n < twoTo (k + 1)) :
    n.log2 = k := by
  have hn : n ≠ 0 := by
    have := twoTo_pos k
    omega
  rw [twoTo, Nat.one_shiftLeft] at hlow hhigh
  exact (Nat.log2_eq_iff hn).mpr ⟨hlow, hhigh⟩

/-- A factor that is a power of two adds its exponent to the logarithm. -/
theorem log2_mul_twoTo {n : Nat} (h : n ≠ 0) (k : Nat) : (n * twoTo k).log2 = n.log2 + k := by
  apply log2_eq_of_twoTo_le
  · rw [twoTo_add]
    exact Nat.mul_le_mul_right _ (twoTo_log2_le h)
  · rw [Nat.add_right_comm, twoTo_add]
    exact Nat.mul_lt_mul_of_pos_right (lt_twoTo_log2_succ n) (twoTo_pos k)

end RoutedExperts
