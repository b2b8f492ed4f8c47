import Mathlib.Data.List.Basic
import RoutedExperts.Proofs.Index

/-!
# Lists end to end

Lists that lie end to end are cut out again at the sums of their lengths. Groups of slots and the
packed experts of a stack are both read this way.
-/

namespace RoutedExperts

/-- Where list number `e` begins when lists of the given sizes lie end to end. -/
def segmentStart (size : Nat → Nat) : Nat → Nat
  | 0 => 0
  | e + 1 => segmentStart size e + size e

theorem segmentStart_succ (size : Nat → Nat) (e : Nat) :
    segmentStart size (e + 1) = segmentStart size e + size e := rfl

/-- Segments start in the order of their numbers. -/
theorem segmentStart_mono (size : Nat → Nat) {e e' : Nat} (h : e ≤ e') :
    segmentStart size e ≤ segmentStart size e' := by
  induction h with
  | refl => exact Nat.le_refl _
  | step _ ih =>
    rw [segmentStart_succ]
    omega

/-- Lists behind each other are as long as the segment of the next list starts. -/
theorem length_flatMap_range {α : Type} (lists : Nat → List α) (n : Nat) :
    ((List.range n).flatMap lists).length = segmentStart (fun e => (lists e).length) n := by
  induction n with
  | zero => rfl
  | succ n ih =>
    rw [List.range_succ, List.flatMap_append, List.flatMap_singleton, List.length_append, ih,
      segmentStart_succ]

/-- A list is cut out of the lists that lie end to end at its two boundaries. -/
theorem extract_flatMap_range {α : Type} (lists : Nat → List α) {n e : Nat} (he : e < n) :
    ((List.range n).flatMap lists).extract (segmentStart (fun e => (lists e).length) e)
      (segmentStart (fun e => (lists e).length) (e + 1)) = lists e := by
  obtain ⟨m, rfl⟩ : ∃ m, n = e + 1 + m := ⟨n - (e + 1), by omega⟩
  rw [List.range_add, List.range_succ, List.flatMap_append, List.flatMap_append,
    List.flatMap_singleton, List.append_assoc, ← length_flatMap_range, segmentStart_succ,
    ← length_flatMap_range, List.extract_eq_take_drop, List.drop_left, Nat.add_sub_cancel_left,
    List.take_left]

/-- Every place lies between the boundaries of some list. -/
theorem exists_segmentStart_le (size : Nat → Nat) {n p : Nat} (hp : p < segmentStart size n) :
    ∃ e < n, segmentStart size e ≤ p ∧ p < segmentStart size (e + 1) := by
  induction n with
  | zero => exact absurd hp (Nat.not_lt_zero p)
  | succ n ih =>
    by_cases h : p < segmentStart size n
    · obtain ⟨e, he, hplace⟩ := ih h
      exact ⟨e, by omega, hplace⟩
    · exact ⟨n, by omega, by omega, hp⟩

/-- The place of an element inside its list. -/
theorem getElem?_flatMap_range {α : Type} (lists : Nat → List α) {n e p : Nat} (he : e < n)
    (hlow : segmentStart (fun e => (lists e).length) e ≤ p)
    (hhigh : p < segmentStart (fun e => (lists e).length) (e + 1)) :
    ((List.range n).flatMap lists)[p]? =
      (lists e)[p - segmentStart (fun e => (lists e).length) e]? := by
  conv => rhs; lhs; rw [← extract_flatMap_range lists he]
  rw [List.extract_eq_take_drop, List.getElem?_take_of_lt (by omega), List.getElem?_drop,
    Nat.add_sub_cancel' hlow]

/-- Lists of one length are cut out at its multiples. -/
theorem extract_flatMap {α β : Type} {part : α → List β} {size : Nat} {l : List α}
    (hsize : ∀ a ∈ l, (part a).length = size) {e : Nat} (he : e < l.length) :
    (l.flatMap part).extract (e * size) ((e + 1) * size) = part l[e] := by
  induction l generalizing e with
  | nil => exact absurd he (Nat.not_lt_zero e)
  | cons a l ih =>
    have ha := hsize a List.mem_cons_self
    rw [List.flatMap_cons, List.extract_eq_take_drop, Nat.succ_mul, Nat.add_sub_cancel_left]
    cases e with
    | zero => rw [Nat.zero_mul, List.drop_zero, ← ha, List.take_left, List.getElem_cons_zero]
    | succ e =>
      have ih := ih (fun a' ha' => hsize a' (List.mem_cons_of_mem a ha'))
        (Nat.lt_of_succ_lt_succ he)
      rw [List.extract_eq_take_drop, Nat.succ_mul, Nat.add_sub_cancel_left] at ih
      rw [Nat.succ_mul, Nat.add_comm, List.getElem_cons_succ, ← ih]
      conv => lhs; arg 2; arg 1; rw [← ha]
      rw [List.drop_length_add_append, ha]

/-- Arrays appended one after the other. -/
theorem toList_foldl_append {α β : Type} (part : α → Array β) (l : List α) (all : Array β) :
    (l.foldl (fun all a => all ++ part a) all).toList =
      all.toList ++ l.flatMap fun a => (part a).toList := by
  induction l generalizing all with
  | nil => rw [List.foldl_nil, List.flatMap_nil, List.append_nil]
  | cons a l ih =>
    rw [List.foldl_cons, ih, Array.toList_append, List.flatMap_cons, List.append_assoc]

/-- Arrays of one size that make up an array are cut out of it at multiples of the size. -/
theorem extract_of_toList_eq_flatMap {α β : Type} {part : α → Array β} {size : Nat} {l : List α}
    {all : Array β} (hall : all.toList = l.flatMap fun a => (part a).toList)
    (hsize : ∀ a ∈ l, (part a).size = size) {e : Nat} (he : e < l.length) :
    all.extract (e * size) ((e + 1) * size) = part l[e] := by
  apply Array.toList_inj.mp
  rw [Array.toList_extract, hall]
  exact extract_flatMap (fun a ha => Array.length_toList.trans (hsize a ha)) he

/-- Where parts of one size stand behind each other, entry `i` of part `e` is at `e * size + i`. -/
theorem getD_of_toList_eq_flatMap {α β : Type} {part : α → Array β} {size : Nat} {l : List α}
    {all : Array β} (hall : all.toList = l.flatMap fun a => (part a).toList)
    (hsize : ∀ a ∈ l, (part a).size = size) {e i : Nat} (he : e < l.length) (hi : i < size)
    (d : β) : all.getD (e * size + i) d = (part l[e]).getD i d := by
  have hpart := hsize l[e] (List.getElem_mem he)
  rw [← extract_of_toList_eq_flatMap hall hsize he, Array.size_extract, Nat.succ_mul] at hpart
  rw [← extract_of_toList_eq_flatMap hall hsize he, Array.getD_eq_getD_getElem?,
    Array.getD_eq_getD_getElem?, Array.getElem?_extract, Nat.succ_mul, hpart, if_pos hi]

/-- Arrays of one size are cut out of the appended arrays at its multiples. -/
theorem extract_foldl_append {α β : Type} {part : α → Array β} {size : Nat} {l : List α}
    (hsize : ∀ a ∈ l, (part a).size = size) {e : Nat} (he : e < l.length) :
    (l.foldl (fun all a => all ++ part a) #[]).extract (e * size) ((e + 1) * size) =
      part l[e] :=
  extract_of_toList_eq_flatMap (toList_foldl_append part l #[]) hsize he

/-- Appending parts of one size puts entry `i` of part `e` at `e * size + i`. -/
theorem getD_foldl_append {α β : Type} {part : α → Array β} {size : Nat} {l : List α}
    (hsize : ∀ a ∈ l, (part a).size = size) {e i : Nat} (he : e < l.length) (hi : i < size)
    (d : β) : (l.foldl (fun all a => all ++ part a) #[]).getD (e * size + i) d =
      (part l[e]).getD i d :=
  getD_of_toList_eq_flatMap (toList_foldl_append part l #[]) hsize he hi d

/-- Parts of one size have their number times that size of entries together. -/
theorem size_foldl_append {α β : Type} {part : α → Array β} {size : Nat} {l : List α}
    (hsize : ∀ a ∈ l, (part a).size = size) :
    (l.foldl (fun all a => all ++ part a) #[]).size = l.length * size := by
  rw [← Array.length_toList, toList_foldl_append, List.nil_append]
  induction l with
  | nil => rw [List.flatMap_nil, List.length_nil, List.length_nil, Nat.zero_mul]
  | cons a l ih =>
    have ha := hsize a List.mem_cons_self
    rw [List.flatMap_cons, List.length_append, Array.length_toList, ha,
      ih fun a' ha' => hsize a' (List.mem_cons_of_mem a ha'), List.length_cons, Nat.succ_mul,
      Nat.add_comm]

section Shares

variable {α : Type} {xs : Array α} {count size e : Nat} (hsize : xs.size = count * size)
  (he : e < count)

include hsize he

/-- The size of one of several equal shares of an array. -/
theorem size_share : (xs.extract (e * size) ((e + 1) * size)).size = size := by
  have hend : (e + 1) * size ≤ count * size := Nat.mul_le_mul_right size he
  rw [Array.size_extract, Nat.min_eq_left (by omega), Nat.succ_mul, Nat.add_sub_cancel_left]

/-- The elements of one of several equal shares of an array. -/
theorem getElem?_share {i : Nat} (hi : i < size) (d : α) :
    (xs.extract (e * size) ((e + 1) * size))[i]? = some (xs.getD (e * size + i) d) := by
  have hplace : e * size + i < xs.size := by
    rw [hsize]
    exact rowMajor_lt he hi
  have hshare := size_share hsize he
  rw [Array.size_extract] at hshare
  rw [Array.getElem?_extract, if_pos (by omega)]
  exact getElem?_eq_some_getD hplace d

end Shares

/-- Rows of one size that lie end to end are found again at its multiples. -/
theorem getD_flatMap_ofFn {α β : Type} (row : Nat → α) (part : α → Array β) {count size m j : Nat}
    (hsize : ∀ m < count, (part (row m)).size = size) (hm : m < count) (hj : j < size) (d : β) :
    ((Array.ofFn fun m : Fin count => row m).flatMap part).getD (m * size + j) d =
      (part (row m)).getD j d := by
  have hparts : ∀ a ∈ (Array.ofFn fun m : Fin count => row m).toList, (part a).size = size := by
    intro a ha
    obtain ⟨i, rfl⟩ := Array.mem_ofFn.mp (Array.mem_toList_iff.mp ha)
    exact hsize i i.isLt
  have hplace : m < (Array.ofFn fun m : Fin count => row m).toList.length := by
    rwa [Array.length_toList, Array.size_ofFn]
  rw [getD_of_toList_eq_flatMap Array.toList_flatMap hparts hplace hj, Array.getElem_toList,
    Array.getElem_ofFn]

end RoutedExperts
