import Mathlib.Data.List.Range

/-!
# Row-major indices

A matrix is kept row by row. The row and the column of an index are its quotient and its remainder
by the number of columns, and counted and indexed loops are folds over lists. `sumProducts` is the
loop that every product of a row and a column runs.
-/

namespace RoutedExperts

/-- A place of a row lies before the end of the rows. -/
theorem rowMajor_lt {rows columns r n : Nat} (hr : r < rows) (hn : n < columns) :
    r * columns + n < rows * columns := by
  have h : (r + 1) * columns ≤ rows * columns := Nat.mul_le_mul_right columns hr
  rw [Nat.succ_mul] at h
  omega

/-- The row of a row-major index. -/
theorem rowMajor_div {columns n : Nat} (r : Nat) (hn : n < columns) :
    (r * columns + n) / columns = r := by
  rw [Nat.mul_comm, Nat.mul_add_div (by omega), Nat.div_eq_of_lt hn, Nat.add_zero]

/-- The column of a row-major index. -/
theorem rowMajor_mod {columns n : Nat} (r : Nat) (hn : n < columns) :
    (r * columns + n) % columns = n := by
  rw [Nat.mul_comm, Nat.mul_add_mod, Nat.mod_eq_of_lt hn]

/-- Row and column make up the index. -/
theorem div_mul_add_mod (i columns : Nat) : i / columns * columns + i % columns = i := by
  rw [Nat.mul_comm]
  exact Nat.div_add_mod i columns

/-- The row and the column of an index below the size of a matrix. -/
theorem row_lt_column_lt {rows columns i : Nat} (hi : i < rows * columns) :
    i / columns < rows ∧ i % columns < columns :=
  ⟨Nat.div_lt_of_lt_mul (by rwa [Nat.mul_comm]), Nat.mod_lt i (Nat.pos_of_lt_mul_left hi)⟩

/-- A counted loop is a fold over the numbers that it counts. -/
theorem fold_eq_foldl_range {α : Type} (count : Nat) (step : Nat → α → α) (start : α) :
    Nat.fold count (fun i _ => step i) start =
      (List.range count).foldl (fun a i => step i a) start := by
  induction count with
  | zero => rfl
  | succ count ih =>
    rw [Nat.fold_succ, ih, List.range_succ, List.foldl_append]
    rfl

/-- A loop inside a loop is one loop over the row-major indices. -/
theorem foldl_range_mul {α : Type} (rows columns : Nat) (step : α → Nat → α) (start : α) :
    (List.range (rows * columns)).foldl step start =
      (List.range rows).foldl (fun a r =>
        (List.range columns).foldl (fun a n => step a (r * columns + n)) a) start := by
  induction rows with
  | zero =>
    rw [Nat.zero_mul]
    rfl
  | succ rows ih =>
    rw [Nat.succ_mul, List.range_add, List.foldl_append, ih, List.foldl_map, List.range_succ,
      List.foldl_append]
    rfl

/-- A loop over an array and its indices is a fold over the list of both. -/
theorem foldl_zipIdx {α β : Type} (step : β → α × Nat → β) (start : β) (xs : Array α) :
    xs.zipIdx.foldl step start = xs.toList.zipIdx.foldl step start := by
  rw [← Array.foldl_toList, Array.toList_zipIdx]

/-- The elements of a tabulated array. -/
theorem getD_ofFn {α : Type} {n i : Nat} (f : Fin n → α) (hi : i < n) (d : α) :
    (Array.ofFn f).getD i d = f ⟨i, hi⟩ := by
  rw [Array.getD_eq_getD_getElem?, Array.getElem?_ofFn, dif_pos hi, Option.getD_some]

/-- An element that is there. -/
theorem getElem?_eq_some_getD {α : Type} {xs : Array α} {i : Nat} (hi : i < xs.size) (d : α) :
    xs[i]? = some (xs.getD i d) := by
  rw [Array.getD_eq_getD_getElem?, Array.getElem?_eq_getElem hi, Option.getD_some]

/-- The sum of the products of two rows, from the first place to the last. -/
def sumProducts (size : Nat) (left right : Nat → Float32) : Float32 :=
  (List.range size).foldl (fun sum k => sum + left k * right k) 0

/-- A sum of products is read off the places of the two rows. -/
theorem sumProducts_congr {size : Nat} {left left' right right' : Nat → Float32}
    (hleft : ∀ k < size, left k = left' k) (hright : ∀ k < size, right k = right' k) :
    sumProducts size left right = sumProducts size left' right' := by
  apply List.foldl_ext
  intro sum k hk
  have hk := List.mem_range.mp hk
  rw [hleft k hk, hright k hk]

/-- A counted loop that adds up products is their sum. -/
theorem fold_eq_sumProducts (size : Nat) (left right : Nat → Float32) :
    Nat.fold size (fun k _ sum => sum + left k * right k) 0 = sumProducts size left right :=
  fold_eq_foldl_range size (fun k sum => sum + left k * right k) 0

end RoutedExperts
