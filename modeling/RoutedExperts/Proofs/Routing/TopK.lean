import RoutedExperts.Proofs.Checks
import RoutedExperts.Proofs.Segments
import RoutedExperts.Proofs.Tensor.Entries
import RoutedExperts.Routing.TopK

/-!
# Selection row by row

The experts and weights of a token are those of its own row of logits: the rows of a selection lie
end to end, all of the same length, so each of them is found again at its place
(`getElem?_experts_choice`, `getD_weights_choice`).
-/

namespace RoutedExperts

namespace TopK

/-! ### One row -/

theorem size_softmax (logits : Array Float32) : (softmax logits).size = logits.size := by
  simp only [softmax, Array.size_map]

/-- Ranking reorders the experts. -/
theorem ranking_perm (probabilities : Array Float32) :
    (ranking probabilities).Perm (List.range probabilities.size) :=
  List.mergeSort_perm _ _

/-- As many experts are chosen as asked for, if there are so many. -/
theorem size_chosen {count : Nat} {probabilities : Array Float32}
    (h : count ≤ probabilities.size) : (chosen count probabilities).size = count := by
  rw [chosen, List.size_toArray, List.length_take, (ranking_perm probabilities).length_eq,
    List.length_range, Nat.min_eq_left h]

/-- A chosen expert is one of the row. -/
theorem lt_size_of_mem_chosen {count : Nat} {probabilities : Array Float32} {e : Nat}
    (he : e ∈ chosen count probabilities) : e < probabilities.size := by
  rw [chosen, List.mem_toArray] at he
  exact List.mem_range.mp ((ranking_perm probabilities).mem_iff.mp (List.mem_of_mem_take he))

/-- Every chosen expert gets a weight. -/
theorem size_weigh (renormalize : Bool) (probabilities : Array Float32) (experts : Array Nat) :
    (weigh renormalize probabilities experts).size = experts.size := by
  cases renormalize <;> simp [weigh]

/-- A row chooses as many experts as it is told to. -/
theorem size_selectRow {selection : Selection} {logits : Array Float32}
    (h : selection.count ≤ logits.size) : (selectRow selection logits).1.size = selection.count ∧
      (selectRow selection logits).2.size = selection.count := by
  have hsize : (chosen selection.count (softmax logits)).size = selection.count :=
    size_chosen (by rwa [size_softmax])
  exact ⟨hsize, (size_weigh ..).trans hsize⟩

/-- An expert selected for a row is one of it. -/
theorem lt_of_mem_selectRow {selection : Selection} {logits : Array Float32} {e : Nat}
    (he : e ∈ (selectRow selection logits).1) : e < logits.size := by
  have hlt := lt_size_of_mem_chosen he
  rwa [size_softmax] at hlt

/-- The expert in place `j` of a row, as the tensor of experts holds it. -/
def rowExpert (selection : Selection) (logits : Array Float32) (j : Nat) : Nat :=
  ((selectRow selection logits).1.getD j 0).toUInt32.toNat

/-- The weight in place `j` of a row. -/
def rowWeight (selection : Selection) (logits : Array Float32) (j : Nat) : Float32 :=
  (selectRow selection logits).2.getD j 0

/-- A row names experts that exist. -/
theorem rowExpert_lt {selection : Selection} {logits : Array Float32} {j : Nat}
    (h : selection.count ≤ logits.size) (hj : j < selection.count) :
    rowExpert selection logits j < logits.size := by
  have hplace : j < (selectRow selection logits).1.size := by rwa [(size_selectRow h).1]
  have hmem := lt_of_mem_selectRow (Array.getElem_mem hplace)
  rw [rowExpert, ← Array.getElem_eq_getD (h := hplace)]
  exact Nat.lt_of_le_of_lt (Nat.mod_le _ _) hmem

/-! ### All rows -/

/-- The row of a token in a matrix of values. -/
def tokenRow (values : Array Float32) (width m : Nat) : Array Float32 :=
  values.extract (m * width) ((m + 1) * width)

/-- The experts of all rows end to end. -/
def allExperts (logits : Tensor) (selection : Selection) (tokens experts : Nat) : Array UInt32 :=
  (Array.ofFn fun m : Fin tokens =>
    selectRow selection (tokenRow logits.singles experts m)).flatMap fun row =>
      row.1.map (·.toUInt32)

/-- The weights of all rows end to end. -/
def allWeights (logits : Tensor) (selection : Selection) (tokens experts : Nat) : Array Float32 :=
  (Array.ofFn fun m : Fin tokens =>
    selectRow selection (tokenRow logits.singles experts m)).flatMap (·.2)

/-- The experts and weights of every token. -/
def choice (logits : Tensor) (selection : Selection) (tokens experts : Nat) : Choice where
  weights := Tensor.ofSingles .f32 [tokens, selection.count]
    (allWeights logits selection tokens experts)
  experts := Tensor.ofWords [tokens, selection.count] (allExperts logits selection tokens experts)

/-- All tokens choose equally many experts. -/
theorem size_experts_choice (logits : Tensor) (selection : Selection) (tokens experts : Nat) :
    (choice logits selection tokens experts).experts.ints.size = tokens * selection.count := by
  rw [Tensor.size_ints, ← volume_pair]
  rfl

/-- A selection is made exactly from a matrix of logits with a row, for at least one expert and no
more than there are. -/
theorem select_eq_ok_iff {logits : Tensor} {tokens experts : Nat}
    (hshape : logits.shape = [tokens, experts]) (selection : Selection) (c : Choice) :
    select logits selection = .ok c ↔ 0 < selection.count ∧ selection.count ≤ experts ∧
      0 < tokens ∧ c = choice logits selection tokens experts := by
  simp only [select, hshape, error_bind, pure_eq_ok, throw_eq_error, refuse_eq_ok_iff, not_or,
    Except.ok.injEq]
  constructor
  · rintro ⟨⟨hcount, hexperts⟩, htokens, rfl⟩
    exact ⟨Nat.pos_of_ne_zero hcount, Nat.le_of_not_lt hexperts, Nat.pos_of_ne_zero htokens, rfl⟩
  · rintro ⟨hcount, hexperts, htokens, rfl⟩
    exact ⟨⟨Nat.ne_of_gt hcount, Nat.not_lt.mpr hexperts⟩, Nat.ne_of_gt htokens, rfl⟩

/-- From a matrix of logits with a row, a selection fails only for the number of experts. -/
theorem select_eq_error_iff {logits : Tensor} {tokens experts : Nat}
    (hshape : logits.shape = [tokens, experts]) (htokens : 0 < tokens) (selection : Selection)
    (e : Error) : select logits selection = .error e ↔
      ¬ (0 < selection.count ∧ selection.count ≤ experts) ∧
        .chosenCount selection.count experts = e := by
  have hcount : selection.count = 0 ∨ experts < selection.count ↔
      ¬ (0 < selection.count ∧ selection.count ≤ experts) := by omega
  simp only [select, hshape, error_bind, pure_eq_ok, throw_eq_error, refuse_eq_error_iff,
    Nat.ne_of_gt htokens, false_and, reduceCtorEq, and_false, or_false, hcount]

section

variable {logits : Tensor} {selection : Selection} {tokens experts : Nat}
  (hshape : logits.shape = [tokens, experts]) (hcount : selection.count ≤ experts)

include hshape

/-- The row of a token has a logit for each expert. -/
theorem size_tokenRow {m : Nat} (hm : m < tokens) :
    (tokenRow logits.singles experts m).size = experts := by
  apply size_share _ hm
  rw [Tensor.size_singles, hshape, volume_pair]

/-- The row of a token has its logits in their order. -/
theorem getElem?_tokenRow {m i : Nat} (hm : m < tokens) (hi : i < experts) :
    (tokenRow logits.singles experts m)[i]? = some (logits.singles.getD (m * experts + i) 0) := by
  apply getElem?_share _ hm hi
  rw [Tensor.size_singles, hshape, volume_pair]

/-- The row of a token is read at its place in the matrix. -/
theorem getD_tokenRow {m i : Nat} (hm : m < tokens) (hi : i < experts) :
    (tokenRow logits.singles experts m).getD i 0 = logits.singles.getD (m * experts + i) 0 := by
  rw [Array.getD_eq_getD_getElem?, getElem?_tokenRow hshape hm hi, Option.getD_some]

/-- A row is determined by its entries. -/
theorem tokenRow_eq {m : Nat} (hm : m < tokens) {row : Array Float32} (hsize : row.size = experts)
    (h : ∀ i < experts, logits.singles.getD (m * experts + i) 0 = row.getD i 0) :
    tokenRow logits.singles experts m = row := by
  have hsize' := size_tokenRow hshape hm
  ext i hi hi'
  · rw [hsize, hsize']
  · have hread := getElem?_tokenRow hshape hm (hsize ▸ hi')
    rw [h i (hsize ▸ hi'), ← getElem?_eq_some_getD hi', Array.getElem?_eq_getElem hi,
      Array.getElem?_eq_getElem hi', Option.some.injEq] at hread
    exact hread

include hcount

private theorem size_selectRow_tokenRow {m : Nat} (hm : m < tokens) :
    (selectRow selection (tokenRow logits.singles experts m)).1.size = selection.count ∧
      (selectRow selection (tokenRow logits.singles experts m)).2.size = selection.count :=
  size_selectRow (by rwa [size_tokenRow hshape hm])

/-- The expert of a slot is the one that the slot's row of logits names. -/
theorem getElem?_experts_choice {m j : Nat} (hm : m < tokens) (hj : j < selection.count) :
    (choice logits selection tokens experts).experts.ints[m * selection.count + j]? =
      some (rowExpert selection (tokenRow logits.singles experts m) j : Int) := by
  have hplace := (size_selectRow_tokenRow hshape hcount hm).1
  have hwords : (allExperts logits selection tokens experts).getD (m * selection.count + j) 0 =
      ((selectRow selection (tokenRow logits.singles experts m)).1.getD j 0).toUInt32 := by
    rw [allExperts, getD_flatMap_ofFn
      (fun m => selectRow selection (tokenRow logits.singles experts m)) _ _ hm hj]
    · rw [Array.getD_eq_getD_getElem?, Array.getD_eq_getD_getElem?, Array.getElem?_map,
        Array.getElem?_eq_getElem (by rwa [hplace]), Option.map_some, Option.getD_some,
        Option.getD_some]
    · intro m hm
      rw [Array.size_map, (size_selectRow_tokenRow hshape hcount hm).1]
  simp only [choice, Tensor.ofWords]
  rw [Tensor.getElem?_ints_ofFn .u32 _ (lt_volume_pair hm hj), hwords, Element.toInt_u32]
  rfl

/-- The weight of a slot is the one that the slot's row of logits gives. -/
theorem getD_weights_choice {m j : Nat} (hm : m < tokens) (hj : j < selection.count) :
    (choice logits selection tokens experts).weights.singles.getD (m * selection.count + j) 0 =
      rowWeight selection (tokenRow logits.singles experts m) j := by
  rw [choice, Tensor.getD_singles_ofSingles .f32 _ (lt_volume_pair hm hj), allWeights,
    getD_flatMap_ofFn (fun m => selectRow selection (tokenRow logits.singles experts m)) _
      (fun m hm => (size_selectRow_tokenRow hshape hcount hm).2) hm hj]
  rfl

end

end TopK

end RoutedExperts
