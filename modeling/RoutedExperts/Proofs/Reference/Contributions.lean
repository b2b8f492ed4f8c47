import RoutedExperts.Proofs.Checks
import RoutedExperts.Proofs.Segments
import RoutedExperts.Proofs.Tensor.Entries
import RoutedExperts.Reference.Dense

/-!
# What a dense reference adds to a token

A dense reference gathers rows, multiplies them as one matrix for each expert and scatters the
products back. Token by token it is a plain sum: to a zero it adds, in the order of the routed rows,
the token's product with an expert times a weight, once for each pair that the rows route to the
token (`Reference.contributions`, `Reference.dense_eq`).
-/

namespace RoutedExperts

namespace Reference

/-- The pairs of an expert and a weight that one expert's rows route to a token. -/
def Routed.contributions (r : Routed) (token : Nat) : List (Nat × Float32) :=
  ((r.tokens.zip r.weights).filter fun p => p.1 = token).map fun p => (r.expert, p.2)

/-- The pairs of an expert and a weight that are routed to a token. -/
def contributions (routed : List Routed) (token : Nat) : List (Nat × Float32) :=
  routed.flatMap fun r => r.contributions token

/-- The sum of weighted values, one for each contribution. -/
def weightedSum (value : Nat → Float32) (pairs : List (Nat × Float32)) (start : Float32) :
    Float32 :=
  pairs.foldl (fun sum p => sum + value p.1 * p.2) start

/-- A sum over pairs behind each other goes on from the sum over the first ones. -/
theorem weightedSum_append (value : Nat → Float32) (pairs pairs' : List (Nat × Float32))
    (start : Float32) : weightedSum value (pairs ++ pairs') start =
      weightedSum value pairs' (weightedSum value pairs start) :=
  List.foldl_append

/-! ### Adding weighted rows -/

section

variable {columns : Nat}

/-- Changing the first entries of a row leaves all others. -/
theorem getElem?_fold_modify (row : Nat) (change : Nat → Float32 → Float32) (out : Array Float32)
    (i : Nat) {count : Nat} (hcount : count ≤ columns) :
    (Nat.fold count (fun n _ out => out.modify (row * columns + n) (change n)) out)[i]? =
      if i / columns = row ∧ i % columns < count then out[i]?.map (change (i % columns))
      else out[i]? := by
  induction count with
  | zero => simp only [Nat.fold_zero, Nat.not_lt_zero, and_false, ite_false]
  | succ count ih =>
    have hindex := div_mul_add_mod i columns
    rw [Nat.fold_succ, Array.getElem?_modify, ih (Nat.le_of_succ_le hcount)]
    by_cases hplace : row * columns + count = i
    · have hrow : i / columns = row := by rw [← hplace, rowMajor_div row hcount]
      have hcolumn : i % columns = count := by rw [← hplace, rowMajor_mod row hcount]
      simp only [hplace, hrow, hcolumn, Nat.lt_irrefl, and_false, ite_false, ite_true,
        Nat.lt_succ_self, and_self]
    · have hother : (i / columns = row ∧ i % columns < count + 1) ↔
          (i / columns = row ∧ i % columns < count) := by
        constructor
        · rintro ⟨rfl, hlt⟩
          exact ⟨rfl, by omega⟩
        · rintro ⟨hrow, hlt⟩
          exact ⟨hrow, by omega⟩
      simp only [hplace, ite_false, hother]

/-- Weighted rows reach the entries of their tokens, in order. -/
theorem getElem?_foldl_rows (hcolumns : 0 < columns) (m : Matrix)
    (rows : List ((Nat × Float32) × Nat)) (out : Array Float32) (i : Nat) :
    (rows.foldl (fun out p => Nat.fold columns (fun n _ out =>
      out.modify (p.1.1 * columns + n) (· + m.entry p.2 n * p.1.2)) out) out)[i]? =
      out[i]?.map fun start => (rows.filter fun p => p.1.1 = i / columns).foldl
        (fun sum p => sum + m.entry p.2 (i % columns) * p.1.2) start := by
  induction rows generalizing out with
  | nil => simp only [List.foldl_nil, List.filter_nil, Option.map_id']
  | cons p rows ih =>
    have hcolumn : i % columns < columns := Nat.mod_lt i hcolumns
    rw [List.foldl_cons, ih, getElem?_fold_modify _ _ _ _ (Nat.le_refl columns)]
    by_cases htoken : p.1.1 = i / columns
    · rw [if_pos ⟨htoken.symm, hcolumn⟩, Option.map_map]
      simp only [List.filter_cons, htoken, decide_true, ite_true, List.foldl_cons]
      rfl
    · rw [if_neg fun h => htoken h.1.symm]
      simp only [List.filter_cons, htoken, decide_false, Bool.false_eq_true, ite_false]

variable {value : Nat → Nat → Nat → Float32}

/-- One expert adds its values for a token, once for each row that is routed to the token. -/
theorem getElem?_addRows (hcolumns : 0 < columns) {r : Routed} {m : Matrix}
    (hm : ∀ p ∈ (r.tokens.zip r.weights).zipIdx, ∀ n < columns,
      m.entry p.2 n = value p.1.1 r.expert n) (out : Array Float32) (i : Nat) :
    (addRows columns out r m)[i]? = out[i]?.map
      (weightedSum (value (i / columns) · (i % columns)) (r.contributions (i / columns))) := by
  have hcolumn : i % columns < columns := Nat.mod_lt i hcolumns
  have hpairs : (r.tokens.zip r.weights).filter (fun p => p.1 = i / columns) =
      ((r.tokens.zip r.weights).zipIdx.filter fun p => p.1.1 = i / columns).map Prod.fst := by
    conv => lhs; rw [← List.zipIdx_map_fst 0 (r.tokens.zip r.weights), List.filter_map]
    rfl
  rw [addRows, getElem?_foldl_rows hcolumns]
  apply congrArg (Option.map · out[i]?)
  funext start
  rw [weightedSum, Routed.contributions, hpairs, List.map_map, List.foldl_map]
  apply List.foldl_ext
  intro sum p hp
  obtain ⟨hmem, htoken⟩ := List.mem_filter.mp hp
  rw [hm p hmem _ hcolumn, of_decide_eq_true htoken]
  rfl

/-- All experts together add the values of all contributions. -/
theorem foldlM_addRows {contribution : Routed → Except Error Matrix} {routed : List Routed}
    (hm : ∀ r ∈ routed, ∃ m, contribution r = .ok m ∧
      ∀ p ∈ (r.tokens.zip r.weights).zipIdx, ∀ n < columns,
        m.entry p.2 n = value p.1.1 r.expert n) (out : Array Float32) :
    ∃ out', routed.foldlM (fun out r => do return addRows columns out r (← contribution r)) out =
        .ok out' ∧
      ∀ i : Nat, 0 < columns → out'[i]? = out[i]?.map (weightedSum
        (value (i / columns) · (i % columns)) (contributions routed (i / columns))) := by
  induction routed generalizing out with
  | nil =>
    refine ⟨out, rfl, fun i _ => ?_⟩
    cases out[i]? <;> rfl
  | cons r routed ih =>
    obtain ⟨m, hr, hentry⟩ := hm r List.mem_cons_self
    obtain ⟨out', hout', hsum⟩ := ih (fun r' hr' => hm r' (List.mem_cons_of_mem r hr'))
      (addRows columns out r m)
    refine ⟨out', ?_, fun i hcolumns => ?_⟩
    · rw [List.foldlM_cons, hr]
      exact hout'
    · rw [hsum i hcolumns, getElem?_addRows hcolumns hentry, Option.map_map]
      apply congrArg (Option.map · out[i]?)
      funext start
      exact (weightedSum_append ..).symm

end

/-- A reference is a sum for each token, over the contributions that are routed to it. -/
theorem accumulate_eq {columns : Nat} {value : Nat → Nat → Nat → Float32}
    {contribution : Routed → Except Error Matrix} {routed : List Routed}
    (hm : ∀ r ∈ routed, ∃ m, contribution r = .ok m ∧
      ∀ p ∈ (r.tokens.zip r.weights).zipIdx, ∀ n < columns,
        m.entry p.2 n = value p.1.1 r.expert n) (tokens : Nat) :
    accumulate tokens columns routed contribution = .ok (Tensor.ofFn .f32 [tokens, columns]
      fun i => weightedSum (value (i / columns) · (i % columns))
        (contributions routed (i / columns)) 0) := by
  obtain ⟨out, hout, hsum⟩ := foldlM_addRows hm (Array.replicate (tokens * columns) (0 : Float32))
  rw [accumulate, hout]
  apply congrArg Except.ok
  apply Tensor.ofFn_congr
  intro i hi
  have hplace : i < tokens * columns := by rwa [← volume_pair]
  have hentry := hsum i (Nat.pos_of_lt_mul_left hplace)
  rw [Array.getElem?_replicate, if_pos hplace, Option.map_some] at hentry
  change out.getD i 0 = _
  rw [Array.getD_eq_getD_getElem?, hentry, Option.getD_some]

/-! ### The product of an expert with the rows routed to it -/

variable {activations weights : Tensor} {tokens experts inner columns : Nat}

/-- The product of a token's row with a column of an expert, summed from the first inner index to
the last. -/
def rowProduct (activations weights : Tensor) (inner columns token e n : Nat) : Float32 :=
  sumProducts inner (fun k => activations.singles.getD (token * inner + k) 0)
    (fun k => weights.singles.getD ((e * inner + k) * columns + n) 0)

/-- Rows that are there are gathered in the given order. -/
theorem exists_takeRows (hshape : activations.shape = [tokens, inner]) {rows : List Nat}
    (hrows : ∀ r ∈ rows, r < tokens) :
    ∃ data, takeRows activations activations.singles rows = .ok ⟨[rows.length, inner], data⟩ ∧
      ∀ (p : Nat) (hp : p < rows.length), ∀ k < inner,
        data.getD (p * inner + k) 0 = activations.singles.getD (rows[p] * inner + k) 0 := by
  have hfind : rows.find? (tokens ≤ ·) = none := by
    rw [List.find?_eq_none]
    intro r hr hle
    exact Nat.not_le_of_lt (hrows r hr) (of_decide_eq_true hle)
  have hwidth : volume [inner] = inner := Nat.mul_one inner
  have hvalues : activations.singles.size = tokens * inner := by
    rw [Tensor.size_singles, hshape, volume_pair]
  have hsize : ∀ r ∈ rows, (activations.singles.extract (r * inner) ((r + 1) * inner)).size =
      inner := fun r hr => size_share hvalues (hrows r hr)
  refine ⟨rows.foldl (fun data r =>
    data ++ activations.singles.extract (r * inner) ((r + 1) * inner)) #[], ?_, ?_⟩
  · simp only [takeRows, firstExtent, hshape, List.tail_cons, hwidth, bind_eq_ok_iff,
      Except.ok.injEq, exists_eq_left', hfind, pure_eq_ok]
  · intro p hp k hk
    rw [getD_foldl_append hsize hp hk, Array.getD_eq_getD_getElem?,
      getElem?_share hvalues (hrows _ (List.getElem_mem hp)) hk 0, Option.getD_some]

/-- An expert's matrix is cut out of the stack. -/
theorem exists_expertMatrix (hshape : weights.shape = [experts, inner, columns]) {e : Nat}
    (he : e < experts) :
    ∃ data, expertMatrix weights weights.singles e = .ok ⟨[inner, columns], data⟩ ∧
      ∀ k < inner, ∀ n < columns,
        data.getD (k * columns + n) 0 = weights.singles.getD ((e * inner + k) * columns + n) 0 := by
  have hvalues : weights.singles.size = experts * (inner * columns) := by
    rw [Tensor.size_singles, hshape, volume_triple, Nat.mul_assoc]
  refine ⟨weights.singles.extract (e * (inner * columns)) ((e + 1) * (inner * columns)), ?_, ?_⟩
  · simp only [expertMatrix, hshape, volume_pair, Nat.not_lt_of_le he, ite_false]
  · intro k hk n hn
    have hplace : (e * inner + k) * columns + n = e * (inner * columns) + (k * columns + n) := by
      rw [Nat.add_mul, Nat.mul_assoc, Nat.add_assoc]
    rw [Array.getD_eq_getD_getElem?, getElem?_share hvalues he (rowMajor_lt hk hn) 0,
      Option.getD_some, hplace]

/-- The rows that are routed to an expert have their products in the expert's matrix. -/
theorem exists_multiply (hactivations : activations.shape = [tokens, inner])
    (hweights : weights.shape = [experts, inner, columns]) {r : Routed} (he : r.expert < experts)
    (hrows : ∀ token ∈ r.tokens, token < tokens) :
    ∃ m, (do
        let rows ← takeRows activations activations.singles r.tokens
        multiply rows (← expertMatrix weights weights.singles r.expert)) = .ok m ∧
      ∀ p ∈ (r.tokens.zip r.weights).zipIdx, ∀ n < columns,
        m.entry p.2 n = rowProduct activations weights inner columns p.1.1 r.expert n := by
  obtain ⟨left, hleft, hrow⟩ := exists_takeRows hactivations hrows
  obtain ⟨right, hright, hcolumn⟩ := exists_expertMatrix hweights he
  refine ⟨.ofFn r.tokens.length columns (dot inner columns left right), ?_, ?_⟩
  · rw [hleft, hright]
    exact if_pos rfl
  · rintro ⟨⟨token, weight⟩, p⟩ hp n hn
    have hpair : (r.tokens.zip r.weights)[p]? = some (token, weight) :=
      List.mk_mem_zipIdx_iff_getElem?.mp hp
    obtain ⟨hp, htoken⟩ := List.getElem?_eq_some_iff.mp (List.getElem?_zip_eq_some.mp hpair).1
    rw [Matrix.entry, Matrix.ofFn, getD_ofFn _ (rowMajor_lt hp hn)]
    simp only [rowMajor_div _ hn, rowMajor_mod _ hn]
    rw [dot, fold_eq_sumProducts, rowProduct]
    apply sumProducts_congr
    · intro k hk
      rw [hrow p hp k hk, htoken]
    · intro k hk
      exact hcolumn k hk n hn

/-- The dense reference adds the weighted products of a token with the experts that it is routed
to. -/
theorem dense_eq (hactivations : activations.shape = [tokens, inner])
    (hweights : weights.shape = [experts, inner, columns]) {ids : Tensor}
    {slotWeights : Option Tensor} {routed : List Routed}
    (hrouted : routedRows ids slotWeights experts = .ok routed)
    (hin : ∀ r ∈ routed, r.expert < experts ∧ ∀ token ∈ r.tokens, token < tokens) :
    dense activations weights ids slotWeights = .ok (Tensor.ofFn .f32 [tokens, columns] fun i =>
      weightedSum (rowProduct activations weights inner columns (i / columns) · (i % columns))
        (contributions routed (i / columns)) 0) := by
  simp only [dense, hweights, firstExtent, hactivations, hrouted, bind_eq_ok_iff]
  exact ⟨tokens, rfl, routed, rfl, accumulate_eq
    (fun r hr => exists_multiply hactivations hweights (hin r hr).1 (hin r hr).2) tokens⟩

end Reference

end RoutedExperts
