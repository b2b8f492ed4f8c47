import RoutedExperts.Proofs.Product.PerSlot

/-!
# One row for each token or for each slot

All slots of a token may read the token's row of activations, or every slot may read a row of its
own. When the rows of the slots repeat the rows of their tokens (`Tensor.RepeatsRows`), the two ways
agree: the second call is accepted where the first one is (`Accepted.withRows`), each slot meets the
same numbers (`Accepted.slotValue_withRows`), and the results are the same tensors.
-/

namespace RoutedExperts

/-- A matrix with a row for each slot, which is the row that the slot's token has in another matrix
of the same element type. -/
structure Tensor.RepeatsRows (rows whole : Tensor) (tokens chosen columns : Nat) : Prop where
  element_eq : rows.element = whole.element
  shape_eq : rows.shape = [tokens * chosen, columns]
  entry : ∀ slot < tokens * chosen, ∀ k < columns,
    rows.HasEntry (slot * columns + k) (whole.get (slot / chosen * columns + k))

/-- The rows of the tokens, each repeated for the slots of its token. -/
def Tensor.repeatRows (t : Tensor) (tokens chosen columns : Nat) : Tensor :=
  ofFn t.element [tokens * chosen, columns] fun i =>
    t.get (i / columns / chosen * columns + i % columns)

/-- Repeating the rows of a tensor gives a tensor that repeats them. -/
theorem Tensor.repeatsRows_repeatRows (t : Tensor) (tokens chosen columns : Nat) :
    (t.repeatRows tokens chosen columns).RepeatsRows t tokens chosen columns where
  element_eq := rfl
  shape_eq := rfl
  entry := by
    intro slot hslot k hk
    simpa only [repeatRows, rowMajor_div _ hk, rowMajor_mod _ hk] using
      hasEntry_ofFn t.element (fun i => t.get (i / columns / chosen * columns + i % columns))
        (lt_volume_pair hslot hk)

/-- An entry of a tensor in single precision. -/
theorem Tensor.HasEntry.getD_singles {t : Tensor} {element : Element} {i : Nat}
    {value : element.Value} (h : t.HasEntry i value) :
    t.singles.getD i 0 = element.toSingle value := by
  obtain ⟨rfl, hvalue⟩ := h
  rw [singles, Array.getD_eq_getD_getElem?, Array.getElem?_map, hvalue, Option.map_some,
    Option.getD_some]

/-- The row of a slot reads as the row of its token. -/
theorem Tensor.RepeatsRows.getD_singles {rows whole : Tensor} {tokens chosen columns : Nat}
    (h : rows.RepeatsRows whole tokens chosen columns) (hwhole : whole.shape = [tokens, columns])
    {slot k : Nat} (hslot : slot < tokens * chosen) (hk : k < columns) :
    rows.singles.getD (slot * columns + k) 0 =
      whole.singles.getD (slot / chosen * columns + k) 0 := by
  have htoken : slot / chosen < tokens := (row_lt_column_lt hslot).1
  have hplace : slot / chosen * columns + k < volume whole.shape := by
    rw [hwhole]
    exact lt_volume_pair htoken hk
  rw [(h.entry slot hslot k hk).getD_singles, whole.getD_singles hplace]

namespace GroupedCall

/-- The call in which every slot reads a row of its own. -/
def withRows (c : GroupedCall) (rows : Tensor) : GroupedCall :=
  { c with shape := { c.shape with replicated := false }, activations := rows }

variable {c : GroupedCall} {w w' : Workspace} {o : Operands} {groupSize : Int}
  {scales rows : Tensor}

namespace Accepted

/-- A row for each slot is accepted where a row for each token is. -/
theorem withRows (h : c.Accepted w o groupSize scales)
    (hrows : rows.RepeatsRows c.activations c.shape.tokens c.shape.chosen c.shape.rows)
    (hsize : w'.size = w.size) :
    (c.withRows rows).Accepted w' { o with activations := rows.singles } groupSize scales where
  sound := ⟨h.sound.tokens_pos, h.sound.columns_pos, h.sound.rows_pos, h.sound.experts_pos,
    h.sound.chosen_pos, h.sound.block_mem, h.sound.columns_mod, h.sound.rows_mod⟩
  holdsActivations := by
    refine ⟨?_, hrows.shape_eq⟩
    change rows.element.isActivation = true
    rw [hrows.element_eq]
    exact h.holdsActivations.activation
  holdsType := ⟨h.holdsType.biased, h.holdsType.element_eq, h.holdsType.shape_eq⟩
  holdsGroups := ⟨h.holdsGroups.shape_eq, h.holdsGroups.float, h.holdsGroups.size_eq,
    h.holdsGroups.admitted, h.holdsGroups.divides⟩
  routing := h.routing
  holdsWeights := ⟨h.holdsWeights.some_of_weighted, h.holdsWeights.none_of_not_weighted⟩
  room := by
    rw [hsize]
    exact h.room
  unpermute_eq := h.unpermute_eq
  activations_eq := rfl
  words_eq := h.words_eq
  scales_eq := h.scales_eq
  plan_eq := h.plan_eq

variable (hreplicated : c.shape.replicated = true)
  (hrows : rows.RepeatsRows c.activations c.shape.tokens c.shape.chosen c.shape.rows)

include hreplicated hrows

/-- A slot has the same product with an expert, whichever row it reads. -/
theorem slotProduct_withRows (h : c.Accepted w o groupSize scales)
    (h' : (c.withRows rows).Accepted w' { o with activations := rows.singles } groupSize scales)
    {slot : Nat} (hslot : slot < c.shape.slots) (e n : Nat) :
    h'.contents.slotProduct e slot n = h.contents.slotProduct e slot n := by
  have hwhole : c.activations.shape = [c.shape.tokens, c.shape.rows] := by
    rw [h.holdsActivations.shape_eq, ProductShape.activationRows, if_pos hreplicated]
  -- the two products differ in nothing but the row of activations
  change sumProducts c.shape.rows (fun k => rows.singles.getD (slot * c.shape.rows + k) 0)
    (h.contents.weight e · n) * c.slotFactor slot = _
  simp only [Contents.slotProduct, Contents.rowProduct, hreplicated, ite_true]
  apply congrArg (· * c.slotFactor slot)
  apply sumProducts_congr _ (fun _ _ => rfl)
  intro k hk
  exact hrows.getD_singles hwhole hslot hk

/-- A slot has the same value, whichever row it reads. -/
theorem slotValue_withRows (h : c.Accepted w o groupSize scales)
    (h' : (c.withRows rows).Accepted w' { o with activations := rows.singles } groupSize scales)
    {slot : Nat} (hslot : slot < c.shape.slots) (n : Nat) :
    h'.contents.slotValue slot n = h.contents.slotValue slot n := by
  by_cases hserved : ∃ e, Plan.Serves c.sortedIds.ints c.offsets.ints e slot
  · obtain ⟨e, hs⟩ := hserved
    rw [h.contents.slotValue_of_serves h.routing hslot hs,
      h'.contents.slotValue_of_serves h'.routing hslot hs,
      slotProduct_withRows hreplicated hrows h h' hslot]
  · have hnone : ∀ e, ¬ Plan.Serves c.sortedIds.ints c.offsets.ints e slot :=
      fun e hs => hserved ⟨e, hs⟩
    rw [h.contents.slotValue_of_forall_not_serves hnone,
      h'.contents.slotValue_of_forall_not_serves hnone]

end Accepted

/-- A call whose slots read the rows of their tokens has the same results as the call whose slots
read repeated rows, on every workspace of the same size. -/
theorem results_withRows_eq (hreplicated : c.shape.replicated = true)
    (hrows : rows.RepeatsRows c.activations c.shape.tokens c.shape.chosen c.shape.rows)
    (hsize : w'.size = w.size) :
    (∀ sums, (c.products w).1 = .ok sums → ((c.withRows rows).products w').1 = .ok sums) ∧
      ∀ out, (c.slotProducts w).1 = .ok out → ((c.withRows rows).slotProducts w').1 = .ok out := by
  have helement : (c.withRows rows).activations.element = c.activations.element :=
    hrows.element_eq
  constructor
  · intro sums hsums
    obtain ⟨o, groupSize, scales, h⟩ := exists_accepted_of_execute hsums
    have h' := h.withRows hrows hsize
    rw [← hsums, h'.products_eq, h.products_eq, helement]
    apply congrArg Except.ok
    apply Tensor.ofFn_congr
    intro i hi
    apply congrArg c.activations.element.ofSingle
    apply List.foldl_ext
    intro sum j hj
    have hslot := rowMajor_lt (div_lt_of_lt_volume_pair hi) (List.mem_range.mp hj)
    exact congrArg (sum + ·) (h.slotValue_withRows hreplicated hrows h' hslot _)
  · intro out hout
    obtain ⟨o, groupSize, scales, h⟩ := exists_accepted_of_execute hout
    have h' := h.withRows hrows hsize
    rw [← hout, h'.slotProducts_eq, h.slotProducts_eq, helement]
    apply congrArg Except.ok
    apply Tensor.ofFn_congr
    intro i hi
    have hslot : i / c.shape.columns < c.shape.slots := div_lt_of_lt_volume_triple hi
    apply congrArg c.activations.element.ofSingle
    exact h.slotValue_withRows hreplicated hrows h' hslot _

/-- The sample call has the same results with every row given once for each of its slots, on a used
workspace. -/
theorem results_withRows_eq_tightCall :
    tightCall.shape.replicated = true ∧ usedWorkspace.size = (Workspace.forShape 64 64 16).size ∧
      (∃ sums, (tightCall.products (.forShape 64 64 16)).1 = .ok sums ∧
        ((tightCall.withRows (tightCall.activations.repeatRows 2 2 64)).products
          usedWorkspace).1 = .ok sums) ∧
      ∃ out, (tightCall.slotProducts (.forShape 64 64 16)).1 = .ok out ∧
        ((tightCall.withRows (tightCall.activations.repeatRows 2 2 64)).slotProducts
          usedWorkspace).1 = .ok out := by
  have hsize : usedWorkspace.size = (Workspace.forShape 64 64 16).size := by
    simp only [usedWorkspace, Workspace.forShape, Workspace.ofSize, Workspace.size,
      Array.size_replicate]
  obtain ⟨o, groupSize, scales, h⟩ := exists_accepted_tightCall
  obtain ⟨hsums, hout⟩ := results_withRows_eq (rfl : tightCall.shape.replicated = true)
    (tightCall.activations.repeatsRows_repeatRows 2 2 64) hsize
  exact ⟨rfl, hsize, ⟨_, h.products_eq, hsums _ h.products_eq⟩,
    ⟨_, h.slotProducts_eq, hout _ h.slotProducts_eq⟩⟩

end GroupedCall

end RoutedExperts
