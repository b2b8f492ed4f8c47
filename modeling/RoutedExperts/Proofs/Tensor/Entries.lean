import RoutedExperts.Proofs.Index
import RoutedExperts.Tensor.Basic

/-!
# Entries of tensors

The sizes of the arrays that a tensor is read as, and the entries of tensors that are built from a
function of the position.
-/

namespace RoutedExperts

/-- Truncating an integer keeps it between the bounds. -/
theorem Datum.truncate_ofInt (low high z : Int) :
    (Datum.ofInt z).truncate low high = max low (min high z) := by
  simp only [Datum.ofInt, Datum.truncate, Int.le_refl, ite_true, Int.toNat_zero,
    Nat.shiftLeft_zero, decide_eq_true_eq]
  split <;> congr 2 <;> omega

/-- A word of 32 bits counts as the natural number it stands for. -/
theorem Element.toInt_u32 (x : UInt32) : Element.u32.toInt x = x.toNat := by
  have hlow : ((twoTo 63 : Nat) : Int) = 9223372036854775808 := rfl
  have hx := x.toNat_lt
  rw [Element.toInt, Element.datum, Datum.truncate_ofInt, hlow]
  omega

theorem volume_pair (a b : Nat) : volume [a, b] = a * b := by
  simp only [volume, List.foldr_cons, List.foldr_nil, Nat.mul_one]

theorem volume_triple (a b c : Nat) : volume [a, b, c] = a * b * c := by
  simp only [volume, List.foldr_cons, List.foldr_nil, Nat.mul_one, Nat.mul_assoc]

/-- The place of an entry of a matrix in row-major order is in range. -/
theorem lt_volume_pair {a b r n : Nat} (hr : r < a) (hn : n < b) : r * b + n < volume [a, b] := by
  rw [volume_pair]
  exact rowMajor_lt hr hn

/-- The place of an entry of a stack of matrices in row-major order is in range. -/
theorem lt_volume_triple {a b c r s n : Nat} (hr : r < a) (hs : s < b) (hn : n < c) :
    (r * b + s) * c + n < volume [a, b, c] := by
  rw [volume_triple]
  exact rowMajor_lt (rowMajor_lt hr hs) hn

/-- The row of a position. -/
theorem div_lt_of_lt_volume_pair {a b i : Nat} (hi : i < volume [a, b]) : i / b < a := by
  apply Nat.div_lt_of_lt_mul
  rwa [Nat.mul_comm, ← volume_pair]

/-- A place in a stack of matrices is in one of their rows. -/
theorem div_lt_of_lt_volume_triple {a b c i : Nat} (hi : i < volume [a, b, c]) :
    i / c < a * b := by
  apply Nat.div_lt_of_lt_mul
  rwa [Nat.mul_comm, ← volume_triple]

namespace Tensor

@[simp] theorem size_singles (t : Tensor) : t.singles.size = volume t.shape := by
  rw [singles, Array.size_map, t.size_data]

@[simp] theorem size_ints (t : Tensor) : t.ints.size = volume t.shape := by
  rw [ints, Array.size_map, t.size_data]

@[simp] theorem size_words (t : Tensor) : t.words.size = volume t.shape := by
  rw [words, Array.size_map, t.size_data]

/-- The numbers of a tensor are its entries in single precision. -/
theorem getD_singles (t : Tensor) {i : Nat} (hi : i < volume t.shape) :
    t.singles.getD i 0 = t.element.toSingle (t.get i) := by
  have hdata : i < t.data.size := by rwa [t.size_data]
  simp only [singles, get, Array.getD_eq_getD_getElem?, Array.getElem?_map,
    Array.getElem?_eq_getElem hdata, Option.map_some, Option.getD_some]

theorem get_ofFn (element : Element) {shape : List Nat} (f : Nat → element.Value) {i : Nat}
    (hi : i < volume shape) : (ofFn element shape f).get i = f i :=
  getD_ofFn (fun i : Fin (volume shape) => f i) hi default

/-- The numbers of a tensor made from a function are the function's values in single precision. -/
theorem getD_singles_ofFn (element : Element) {shape : List Nat} (f : Nat → element.Value) {i : Nat}
    (hi : i < volume shape) : (ofFn element shape f).singles.getD i 0 = element.toSingle (f i) := by
  rw [getD_singles (ofFn element shape f) hi]
  exact congrArg element.toSingle (get_ofFn element f hi)

/-- The entries of a tensor with moved elements. -/
theorem getD_singles_reorder (t : Tensor) {source : Nat → Nat} {i : Nat}
    (hi : i < volume t.shape) (hs : source i < volume t.shape) :
    (t.reorder source).singles.getD i 0 = t.singles.getD (source i) 0 := by
  rw [reorder, getD_singles_ofFn _ _ hi, getD_singles t hs]

/-- The same entries are read in any shape of the same volume. -/
theorem getD_singles_reshape (t : Tensor) {shape : List Nat}
    (hvolume : volume shape = volume t.shape) {i : Nat} (hi : i < volume shape) :
    (t.reshape shape).singles.getD i 0 = t.singles.getD i 0 := by
  rw [reshape, getD_singles_ofFn _ _ hi, getD_singles t (hvolume ▸ hi)]

/-- The entries of a tensor of rounded values. -/
theorem getD_singles_ofSingles (element : Element) {shape : List Nat} (values : Array Float32)
    {i : Nat} (hi : i < volume shape) : (ofSingles element shape values).singles.getD i 0 =
      element.toSingle (element.ofSingle (values.getD i 0)) :=
  getD_singles_ofFn element _ hi

/-- A tensor is determined by its entries at the positions of its shape. -/
theorem ofFn_congr {element : Element} {shape : List Nat} {f g : Nat → element.Value}
    (h : ∀ i < volume shape, f i = g i) : ofFn element shape f = ofFn element shape g := by
  have hdata : (Array.ofFn fun i : Fin (volume shape) => f i) =
      Array.ofFn fun i : Fin (volume shape) => g i := by
    congr 1
    funext i
    exact h i i.isLt
  simp only [ofFn, hdata]

private theorem getElem?_map_ofFn {α β : Type} (g : α → β) (f : Nat → α) {n i : Nat} (hi : i < n) :
    ((Array.ofFn fun i : Fin n => f i).map g)[i]? = some (g (f i)) := by
  rw [Array.getElem?_map, Array.getElem?_ofFn, dif_pos hi, Option.map_some]

/-- The words of a tensor made from a function are the words of the function's values. -/
theorem getElem?_words_ofFn (element : Element) {shape : List Nat} (f : Nat → element.Value)
    {i : Nat} (hi : i < volume shape) :
    (ofFn element shape f).words[i]? = some (element.toWord (f i)) :=
  getElem?_map_ofFn element.toWord f hi

/-- Words that fill a shape are read back from it. -/
theorem words_ofWords {shape : List Nat} {values : Array UInt32}
    (h : values.size = volume shape) : (ofWords shape values).words = values := by
  apply Array.ext_getElem?
  intro i
  by_cases hi : i < volume shape
  · have hvalue : i < values.size := by rwa [h]
    rw [ofWords, getElem?_words_ofFn .u32 _ hi, Array.getD_eq_getD_getElem?,
      Array.getElem?_eq_getElem hvalue, Option.getD_some]
    rfl
  · rw [Array.getElem?_eq_none (by rw [size_words]; exact Nat.le_of_not_lt hi),
      Array.getElem?_eq_none (by omega)]

/-- The integers of a tensor made from a function are the integers of the function's values. -/
theorem getElem?_ints_ofFn (element : Element) {shape : List Nat} (f : Nat → element.Value)
    {i : Nat} (hi : i < volume shape) :
    (ofFn element shape f).ints[i]? = some (element.toInt (f i)) :=
  getElem?_map_ofFn element.toInt f hi

/-- The tensor has the element type of the value and holds it at the position. -/
def HasEntry (t : Tensor) {element : Element} (i : Nat) (value : element.Value) : Prop :=
  ∃ h : element = t.element, t.data[i]? = some (h ▸ value)

/-- A tensor made from a function has the function's value as an entry in each place. -/
theorem hasEntry_ofFn (element : Element) {shape : List Nat} (f : Nat → element.Value) {i : Nat}
    (hi : i < volume shape) : (ofFn element shape f).HasEntry i (f i) := by
  refine ⟨rfl, ?_⟩
  change (Array.ofFn fun i : Fin (volume shape) => f i)[i]? = some (f i)
  rw [Array.getElem?_ofFn, dif_pos hi]

end Tensor

end RoutedExperts
