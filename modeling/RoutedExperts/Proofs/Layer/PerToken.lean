import RoutedExperts.Proofs.Layer.Routing
import RoutedExperts.Proofs.Layer.Sessions

/-!
# Forward passes token by token

What a forward pass computes for one token, from the token's row of hidden states and its row of
logits alone: `projectRow` for a single projection and `gatedRow` for a gated network. The calls of
a pass follow the routing of its batch (`GroupedCall.Follows`), so the value of a slot is a product
with the weights of the expert that the slot's row of logits names. `project_eq_ok` and
`gated_eq_ok` say that the passes compute exactly the rows that are defined here, and round each
entry once.
-/

namespace RoutedExperts

/-! ### Calls that follow the routing of a batch -/

namespace GroupedCall

/-- The entries of the slots are their values, rounded once. -/
theorem Accepted.getD_slotProducts {c : GroupedCall} {w : Workspace} {o : Operands}
    {groupSize : Int} {scales : Tensor} (h : c.Accepted w o groupSize scales) {out : Tensor}
    (hout : (c.slotProducts w).1 = .ok out) {slot n : Nat} (hslot : slot < c.shape.slots)
    (hn : n < c.shape.columns) :
    out.singles.getD (slot * c.shape.columns + n) 0 = c.activations.element.toSingle
      (c.activations.element.ofSingle (h.contents.slotValue slot n)) := by
  rw [h.slotProducts_eq, Except.ok.injEq] at hout
  subst hout
  have hplace : slot * c.shape.columns + n <
      volume [c.shape.tokens, c.shape.chosen, c.shape.columns] := by
    rw [volume_triple]
    exact rowMajor_lt hslot hn
  rw [Tensor.getD_singles_ofFn _ _ hplace, rowMajor_div slot hn, rowMajor_mod slot hn]

/-- A call whose slots are routed as a batch is. -/
structure Follows (c : GroupedCall) (batch : Batch) (tokens experts : Nat) (r : Routing) :
    Prop where
  tokens_eq : c.shape.tokens = tokens
  experts_eq : c.shape.experts = experts
  chosen_eq : c.shape.chosen = batch.selection.count
  padded_eq : c.shape.padded = r.alignment.padded
  block_eq : c.shape.block = r.block.size
  ids_eq : c.sortedIds = r.alignment.idTensor
  offsets_eq : c.offsets = r.alignment.offsetTensor
  weights_eq : c.shape.weighted = true → c.weights = some r.weights

end GroupedCall

namespace Forward

/-- The product of a row of values with a matrix of weights, summed from the first value to the
last. -/
def rowProduct (values : Array Float32) (weight : Nat → Nat → Float32) (n : Nat) : Float32 :=
  sumProducts values.size (values.getD · 0) (weight · n)

/-- The values of the experts that a row of logits chooses, summed by their weights. -/
def chosenSum (selection : Selection) (logits : Array Float32) (value : Nat → Float32) : Float32 :=
  (List.range selection.count).foldl (fun sum j => sum +
    value (TopK.rowExpert selection logits j) * TopK.rowWeight selection logits j) 0

end Forward

namespace GroupedCall.Follows

open Forward

variable {c : GroupedCall} {batch : Batch} {tokens experts : Nat} {r : Routing} {w : Workspace}
  {o : Operands} {groupSize : Int} {scales : Tensor}

/-- A call that follows a batch has a slot for each choice of each token. -/
theorem slots_eq (hf : c.Follows batch tokens experts r) :
    c.shape.slots = tokens * batch.selection.count := by
  rw [ProductShape.slots, hf.tokens_eq, hf.chosen_eq]

/-- The places of an accepted routing are counted by its last word. -/
theorem padded_lt (hf : c.Follows batch tokens experts r) (ha : c.Accepted w o groupSize scales) :
    r.alignment.padded < twoTo 32 := by
  have hlast := ha.routing.cuts.last
  rw [hf.offsets_eq, hf.padded_eq] at hlast
  have hlt := Alignment.getD_ints_wordVector_lt r.alignment.offsets c.shape.experts
  rw [← Alignment.offsetTensor, hlast] at hlt
  exact Int.ofNat_lt.mp hlt

/-- A call that follows a batch has a valid plan, if its places fit a word. -/
theorem valid (hf : c.Follows batch tokens experts r) (hr : Routed batch tokens experts r)
    (hpadded : r.alignment.padded < twoTo 32) :
    Plan.Valid c.sortedIds c.offsets c.shape.padded c.shape.experts c.shape.block
      c.shape.slots := by
  rw [hf.ids_eq, hf.offsets_eq, hf.padded_eq, hf.experts_eq, hf.block_eq, hf.slots_eq]
  exact hr.valid hpadded

/-- The weights of a routing are those that a weighted call needs. -/
theorem exists_holdsWeights (hf : c.Follows batch tokens experts r)
    (hr : Routed batch tokens experts r) : ∃ weights, c.HoldsWeights weights := by
  apply exists_holdsWeights_of_shape
  intro hw
  refine ⟨r.weights, hf.weights_eq hw, ?_⟩
  rw [hf.tokens_eq, hf.chosen_eq, hr.weights_shape]

/-- A call that follows the routing of a batch is accepted when its sizes, activations, packed words
and scales are. -/
theorem exists_accepted (hf : c.Follows batch tokens experts r) (hr : Routed batch tokens experts r)
    (hpadded : r.alignment.padded < twoTo 32) (hsound : c.shape.Sound)
    (hactivations : c.HoldsActivations) {type : WeightType} (htype : c.HoldsType type)
    {groups : Nat} (hgroups : c.HoldsGroups type groups groupSize)
    (hroom : Workspace.required c.shape.columns c.shape.rows c.shape.block ≤ w.size)
    (hunpermute : ScaleLayout.unpermute c.scales c.shape.rows c.shape.columns groupSize =
      .ok scales) :
    ∃ o, c.Accepted w o groupSize scales ∧ o.type = type ∧ o.groups = groups := by
  obtain ⟨weights, hweights⟩ := hf.exists_holdsWeights hr
  exact ⟨⟨_, _, _, weights, _, type, groups⟩, ⟨hsound, hactivations, htype, hgroups,
    hf.valid hr hpadded, hweights, hroom, hunpermute, rfl, rfl, rfl, rfl⟩, rfl, rfl⟩

/-- The factor of a slot is the weight that its row of logits gives it. -/
theorem slotFactor_eq (hf : c.Follows batch tokens experts r) (hr : Routed batch tokens experts r)
    {m j : Nat} (hm : m < tokens) (hj : j < batch.selection.count) :
    c.slotFactor (m * batch.selection.count + j) = if c.shape.weighted then
      TopK.rowWeight batch.selection (Routed.logits batch experts m) j else 1 := by
  unfold slotFactor
  cases hw : c.shape.weighted with
  | false => rfl
  | true =>
    rw [hf.weights_eq hw, ← hr.getD_weights hm hj]
    rfl

/-- The value of a slot is the product of its row of activations with the weights of the expert that
its row of logits names. -/
theorem slotValue_eq (hf : c.Follows batch tokens experts r) (hr : Routed batch tokens experts r)
    (ha : c.Accepted w o groupSize scales) {m j : Nat} (hm : m < tokens)
    (hj : j < batch.selection.count) (n : Nat) :
    ha.contents.slotValue (m * batch.selection.count + j) n =
      rowProduct (TopK.tokenRow c.activations.singles c.shape.rows
          (c.shape.activationRow (m * batch.selection.count + j)))
        (ha.contents.weight (TopK.rowExpert batch.selection (Routed.logits batch experts m) j)) n *
        if c.shape.weighted then TopK.rowWeight batch.selection (Routed.logits batch experts m) j
          else 1 := by
  have hslot : m * batch.selection.count + j < c.shape.slots := by
    rw [hf.slots_eq]
    exact rowMajor_lt hm hj
  have hserves := hr.serves (hf.padded_lt ha) hm hj
  rw [← hf.ids_eq, ← hf.offsets_eq] at hserves
  have hshape := ha.holdsActivations.shape_eq
  have hrow := ProductShape.activationRow_lt hslot
  rw [ha.contents.slotValue_of_serves ha.routing hslot hserves, Contents.slotProduct,
    hf.slotFactor_eq hr hm hj, rowProduct, TopK.size_tokenRow hshape hrow]
  congr 1
  apply sumProducts_congr _ (fun _ _ => rfl)
  intro k hk
  exact (TopK.getD_tokenRow hshape hrow hk).symm

/-- The rows of the tokens hold the sums over their chosen experts, rounded once. -/
theorem products_eq (hf : c.Follows batch tokens experts r) (hr : Routed batch tokens experts r)
    (ha : c.Accepted w o groupSize scales) (hweighted : c.shape.weighted = true)
    (row : Nat → Nat → Array Float32)
    (hrow : ∀ m < tokens, ∀ j < batch.selection.count,
      TopK.tokenRow c.activations.singles c.shape.rows
          (c.shape.activationRow (m * batch.selection.count + j)) =
        row m (TopK.rowExpert batch.selection (Routed.logits batch experts m) j)) :
    (c.products w).1 = .ok (Tensor.ofFn c.activations.element [tokens, c.shape.columns] fun i =>
      c.activations.element.ofSingle (chosenSum batch.selection
        (Routed.logits batch experts (i / c.shape.columns)) fun e =>
          rowProduct (row (i / c.shape.columns) e) (ha.contents.weight e)
            (i % c.shape.columns))) := by
  rw [ha.products_eq, hf.tokens_eq, hf.chosen_eq]
  apply congrArg Except.ok
  apply Tensor.ofFn_congr
  intro i hi
  have hm := div_lt_of_lt_volume_pair hi
  apply congrArg c.activations.element.ofSingle
  apply List.foldl_ext
  intro sum j hj
  have hj : j < batch.selection.count := List.mem_range.mp hj
  rw [hf.slotValue_eq hr ha hm hj, hrow _ hm j hj, hweighted]
  rfl

end GroupedCall.Follows

/-! ### The gated activation of a row -/

/-- The gate of a matrix with an even number of columns is taken entry by entry. -/
theorem Activation.gate_eq {t : Tensor} {rows half : Nat} (hshape : t.shape = [rows, 2 * half]) :
    gate t = .ok (.ofFn t.element [rows, half] fun i =>
      t.element.ofSingle (gateAt half t.singles (i / half) (i % half))) := by
  have hodd : ¬ 2 * half % 2 ≠ 0 := by omega
  have hhalf : 2 * half / 2 = half := by omega
  simp only [gate, hshape, if_neg hodd, hhalf]

/-- The gated product of a row is that of the row alone. -/
theorem Activation.gateAt_congr {half row n : Nat} {values alone : Array Float32}
    (h : ∀ i < 2 * half, values.getD (row * (2 * half) + i) 0 = alone.getD i 0) (hn : n < half) :
    gateAt half values row n = gateAt half alone 0 n := by
  have hgate := h n (by omega)
  have hup := h (half + n) (by omega)
  rw [← Nat.add_assoc] at hup
  simp only [gateAt, hgate, hup, Nat.zero_mul, Nat.zero_add]

namespace Forward

/-! ### One token -/

/-- The row of a single projection. -/
def projectRow (selection : Selection) (weight : Nat → Nat → Nat → Float32)
    (hidden logits : Array Float32) (n : Nat) : Float32 :=
  chosenSum selection logits fun e => rowProduct hidden (weight e) n

/-- The gate and up columns of an expert, each rounded to the element type. -/
def gateUpRow (element : Element) (columns : Nat) (weight : Nat → Nat → Float32)
    (hidden : Array Float32) : Array Float32 :=
  Array.ofFn fun n : Fin columns =>
    element.toSingle (element.ofSingle (rowProduct hidden weight n * 1))

/-- The gated activation of a row of gate and up columns, rounded to the element type. -/
def activatedRow (element : Element) (half : Nat) (gateUp : Array Float32) : Array Float32 :=
  Array.ofFn fun n : Fin half =>
    element.toSingle (element.ofSingle (Activation.gateAt half gateUp 0 n))

/-- An entry of the first product is rounded to the element. -/
theorem getD_gateUpRow (element : Element) {columns n : Nat} (weight : Nat → Nat → Float32)
    (hidden : Array Float32) (hn : n < columns) :
    (gateUpRow element columns weight hidden).getD n 0 =
      element.toSingle (element.ofSingle (rowProduct hidden weight n * 1)) :=
  getD_ofFn _ hn 0

/-- An activated row has half the columns of the first product. -/
theorem size_activatedRow (element : Element) (half : Nat) (gateUp : Array Float32) :
    (activatedRow element half gateUp).size = half :=
  Array.size_ofFn

/-- An entry of the activated row is the gate there, rounded to the element. -/
theorem getD_activatedRow (element : Element) {half n : Nat} (gateUp : Array Float32)
    (hn : n < half) : (activatedRow element half gateUp).getD n 0 =
      element.toSingle (element.ofSingle (Activation.gateAt half gateUp 0 n)) :=
  getD_ofFn _ hn 0

/-- The row of a gated network. -/
def gatedRow (element : Element) (selection : Selection) (half : Nat)
    (first second : Nat → Nat → Nat → Float32) (hidden logits : Array Float32) (n : Nat) :
    Float32 :=
  chosenSum selection logits fun e =>
    rowProduct (activatedRow element half (gateUpRow element (2 * half) (first e) hidden))
      (second e) n

/-! ### Sizes -/

/-- The size of hidden states is read off a matrix. -/
theorem hiddenSize_eq_ok_iff (t : Tensor) (tokens features : Nat) :
    hiddenSize t = .ok (tokens, features) ↔ t.shape = [tokens, features] := by
  unfold hiddenSize
  constructor
  · intro h
    split at h
    · rename_i hshape
      cases h
      exact hshape
    · cases h
  · intro h
    simp only [h]

/-- The sizes of a projection are those of its hidden states, its words and its scales. -/
theorem projectSizes_eq_ok_iff (batch : Batch) (w : PackedWeights) (s : Sizes) :
    projectSizes batch w = .ok s ↔ batch.hidden.shape = [s.tokens, s.features] ∧
      (∃ rows, packedSize "w" w.packed = .ok (s.experts, rows)) ∧
      scaleColumns "scales" w.scales = .ok s.columns := by
  simp only [projectSizes, bind_eq_ok_iff, pure_eq_ok, Except.ok.injEq, Prod.exists,
    hiddenSize_eq_ok_iff]
  constructor
  · rintro ⟨tokens, features, hshape, experts, rows, hpacked, columns, hscales, rfl⟩
    exact ⟨hshape, ⟨rows, hpacked⟩, hscales⟩
  · rintro ⟨hshape, ⟨rows, hpacked⟩, hscales⟩
    exact ⟨_, _, hshape, _, rows, hpacked, _, hscales, rfl⟩

/-- The sizes of a gated pass are those of its tensors, where the first product is twice as wide as
the second is deep. -/
theorem gatedSizes_eq_ok_iff (batch : Batch) (first second : PackedWeights) (s : Sizes)
    (half : Nat) :
    gatedSizes batch first second = .ok (s, half) ↔ batch.hidden.shape = [s.tokens, s.features] ∧
      packedSize "w1" first.packed = .ok (s.experts, s.features) ∧
      packedSize "w2" second.packed = .ok (s.experts, half) ∧
      scaleColumns "w1_scales" first.scales = .ok s.columns ∧ s.columns = 2 * half := by
  simp only [gatedSizes, error_bind, throw_eq_error, bind_eq_ok_iff, pure_eq_ok, Except.ok.injEq,
    Prod.exists, Prod.mk.injEq, refuse_eq_ok_iff, ne_eq, not_not, hiddenSize_eq_ok_iff]
  constructor
  · rintro ⟨tokens, features, hshape, experts, rows, hfirst, experts', half', hsecond, columns,
      hscales, rfl, rfl, rfl, rfl, rfl⟩
    exact ⟨hshape, hfirst, hsecond, hscales, rfl⟩
  · rintro ⟨hshape, hfirst, hsecond, hscales, hcolumns⟩
    exact ⟨_, _, hshape, _, _, hfirst, _, _, hsecond, _, hscales, rfl, rfl, hcolumns, rfl, rfl⟩

/-! ### The calls of a pass -/

section

variable {s : Sizes} {batch : Batch} {r : Routing} {w : Workspace} {o : Operands} {groupSize : Int}
  {scales : Tensor} {weights first second : PackedWeights} {half : Nat}

/-- The call on the rows of the tokens follows the routing. -/
theorem follows_tokenCall (s : Sizes) (batch : Batch) (weights : PackedWeights) (r : Routing)
    (weighted : Bool) :
    (tokenCall s batch weights r weighted).Follows batch s.tokens s.experts r where
  tokens_eq := rfl
  experts_eq := rfl
  chosen_eq := rfl
  padded_eq := rfl
  block_eq := rfl
  ids_eq := rfl
  offsets_eq := rfl
  weights_eq := fun hw => if_pos hw

/-- The call on the rows of the slots follows the routing. -/
theorem follows_slotCall (s : Sizes) (batch : Batch) (half : Nat) (activated : Tensor)
    (weights : PackedWeights) (r : Routing) :
    (slotCall s batch half activated weights r).Follows batch s.tokens s.experts r where
  tokens_eq := rfl
  experts_eq := rfl
  chosen_eq := rfl
  padded_eq := rfl
  block_eq := rfl
  ids_eq := rfl
  offsets_eq := rfl
  weights_eq := fun _ => rfl

/-- All slots of a token read the token's row. -/
theorem activationRow_tokenCall (s : Sizes) (batch : Batch) (weights : PackedWeights) (r : Routing)
    (weighted : Bool) (m : Nat) {j : Nat} (hj : j < batch.selection.count) :
    (tokenCall s batch weights r weighted).shape.activationRow (m * batch.selection.count + j) =
      m := by
  rw [ProductShape.activationRow]
  exact rowMajor_div m hj

/-- The activations of a gated network, one row per slot. -/
def activatedSlots (s : Sizes) (batch : Batch) (half : Nat) (weight : Nat → Nat → Nat → Float32) :
    Tensor :=
  .ofFn batch.hidden.element [s.tokens * batch.selection.count, half] fun i =>
    let m := i / half / batch.selection.count
    let e := TopK.rowExpert batch.selection (Routed.logits batch s.experts m)
      (i / half % batch.selection.count)
    batch.hidden.element.ofSingle (Activation.gateAt half (gateUpRow batch.hidden.element (2 * half)
      (weight e) (TopK.tokenRow batch.hidden.singles s.features m)) 0 (i % half))

/-- The first projection of a gated network: each slot has the gate and up columns of the expert
that its row of logits names. -/
theorem getD_gateUp (hr : Routed batch s.tokens s.experts r)
    (ha : (tokenCall s batch first r false).Accepted w o groupSize scales) {gateUp : Tensor}
    (hproducts : ((tokenCall s batch first r false).slotProducts w).1 = .ok gateUp) {m j n : Nat}
    (hm : m < s.tokens) (hj : j < batch.selection.count) (hn : n < s.columns) :
    gateUp.singles.getD ((m * batch.selection.count + j) * s.columns + n) 0 =
      (gateUpRow batch.hidden.element s.columns (ha.contents.weight
        (TopK.rowExpert batch.selection (Routed.logits batch s.experts m) j))
        (TopK.tokenRow batch.hidden.singles s.features m)).getD n 0 := by
  have hvalue := (follows_tokenCall s batch first r false).slotValue_eq hr ha hm hj n
  rw [activationRow_tokenCall _ _ _ _ _ _ hj] at hvalue
  have hslot : m * batch.selection.count + j < (tokenCall s batch first r false).shape.slots :=
    rowMajor_lt hm hj
  have hread := ha.getD_slotProducts hproducts hslot hn
  rw [hvalue] at hread
  rw [getD_gateUpRow _ _ _ hn]
  exact hread

/-- Activating the first projection gates the columns of each slot. -/
theorem activate_eq (hr : Routed batch s.tokens s.experts r)
    (ha : (tokenCall s batch first r false).Accepted w o groupSize scales)
    (hcolumns : s.columns = 2 * half) {gateUp : Tensor}
    (hproducts : ((tokenCall s batch first r false).slotProducts w).1 = .ok gateUp) :
    activate s batch gateUp = .ok (activatedSlots s batch half ha.contents.weight) := by
  rw [ha.slotProducts_eq, Except.ok.injEq] at hproducts
  subst hproducts
  have hvolume : volume [s.tokens * batch.selection.count, s.columns] =
      volume [s.tokens, batch.selection.count, s.columns] := by rw [volume_pair, volume_triple]
  refine (Activation.gate_eq (congrArg (fun n => [_, n]) hcolumns)).trans ?_
  apply congrArg Except.ok
  apply Tensor.ofFn_congr
  intro i hi
  obtain ⟨hslot, hn⟩ := row_lt_column_lt (volume_pair .. ▸ hi)
  obtain ⟨hm, hj⟩ := row_lt_column_lt hslot
  apply congrArg batch.hidden.element.ofSingle
  apply Activation.gateAt_congr _ hn
  intro k hk
  have hread := getD_gateUp hr ha ha.slotProducts_eq hm hj (hcolumns ▸ hk)
  have hplace := lt_volume_pair hslot (hcolumns ▸ hk)
  rw [div_mul_add_mod] at hread
  rw [← hcolumns, ← hread]
  exact Tensor.getD_singles_reshape _ hvolume hplace

/-- The row of a slot holds the activated columns of the expert that its row of logits names. -/
theorem tokenRow_activatedSlots (s : Sizes) (batch : Batch) (half : Nat)
    (weight : Nat → Nat → Nat → Float32) {m j : Nat} (hm : m < s.tokens)
    (hj : j < batch.selection.count) :
    TopK.tokenRow (activatedSlots s batch half weight).singles half
        (m * batch.selection.count + j) =
      activatedRow batch.hidden.element half (gateUpRow batch.hidden.element (2 * half)
        (weight (TopK.rowExpert batch.selection (Routed.logits batch s.experts m) j))
        (TopK.tokenRow batch.hidden.singles s.features m)) := by
  apply TopK.tokenRow_eq rfl (rowMajor_lt hm hj) (size_activatedRow ..)
  intro n hn
  have hplace := lt_volume_pair (rowMajor_lt hm hj) hn
  rw [activatedSlots, Tensor.getD_singles_ofFn _ _ hplace, getD_activatedRow _ _ hn]
  simp only [rowMajor_div _ hn, rowMajor_mod _ hn, rowMajor_div m hj, rowMajor_mod m hj]

/-! ### Whole passes -/

/-- The tensor with a row for each token, computed from the token's row of hidden states and its row
of logits. -/
def tokenwise (s : Sizes) (batch : Batch) (columns : Nat)
    (row : Array Float32 → Array Float32 → Nat → Float32) : Tensor :=
  .ofFn batch.hidden.element [s.tokens, columns] fun i => batch.hidden.element.ofSingle
    (row (TopK.tokenRow batch.hidden.singles s.features (i / columns))
      (Routed.logits batch s.experts (i / columns)) (i % columns))

/-- A projection with tokens is one weighted product. -/
theorem project_eq (hsizes : projectSizes batch weights = .ok s)
    (hr : Routed batch s.tokens s.experts r) (w : Workspace) :
    project batch weights w = (tokenCall s batch weights r true).products w := by
  have htokens : ¬ s.tokens = 0 := Nat.ne_of_gt hr.tokens_pos
  simp only [project, hsizes, if_neg htokens, (route_eq_ok_iff ..).mpr hr]

/-- A projection computes the row of every token. -/
theorem project_eq_ok (hsizes : projectSizes batch weights = .ok s)
    (hr : Routed batch s.tokens s.experts r)
    (ha : (tokenCall s batch weights r true).Accepted w o groupSize scales) :
    (project batch weights w).1 = .ok (tokenwise s batch s.columns
      (projectRow batch.selection ha.contents.weight)) := by
  rw [project_eq hsizes hr]
  apply (follows_tokenCall s batch weights r true).products_eq hr ha rfl fun m _ =>
    TopK.tokenRow batch.hidden.singles s.features m
  intro m _ j hj
  rw [activationRow_tokenCall _ _ _ _ _ _ hj]
  rfl

/-- A projection with tokens that has a result was routed and accepted. -/
theorem exists_accepted_of_project {out : Tensor} (h : (project batch weights w).1 = .ok out)
    {tokens features : Nat} (hshape : batch.hidden.shape = [tokens, features])
    (htokens : 0 < tokens) :
    ∃ s r, projectSizes batch weights = .ok s ∧ s.tokens = tokens ∧ s.features = features ∧
      Routed batch s.tokens s.experts r ∧ ∃ o groupSize scales,
        (tokenCall s batch weights r true).Accepted w o groupSize scales := by
  cases hsizes : projectSizes batch weights with
  | error e => simp only [project, hsizes, reduceCtorEq] at h
  | ok s =>
    have hsize := ((projectSizes_eq_ok_iff ..).mp hsizes).1
    rw [hshape, List.cons.injEq, List.cons.injEq] at hsize
    obtain ⟨rfl, rfl, _⟩ := hsize
    cases hroute : route batch s.tokens s.experts with
    | error e =>
      simp only [project, hsizes, hroute, if_neg (Nat.ne_of_gt htokens), reduceCtorEq] at h
    | ok r =>
      have hr := (route_eq_ok_iff ..).mp hroute
      rw [project_eq hsizes hr] at h
      exact ⟨s, r, rfl, rfl, rfl, hr, GroupedCall.exists_accepted_of_execute h⟩

/-- A gated network runs its second projection on the activated slots of the first. -/
theorem gated_eq (hsizes : gatedSizes batch first second = .ok (s, half))
    (hr : Routed batch s.tokens s.experts r)
    (ha : (tokenCall s batch first r false).Accepted w o groupSize scales) :
    (gated batch first second w).1 =
      ((slotCall s batch half (activatedSlots s batch half ha.contents.weight) second r).products
        w).1 := by
  have htokens : ¬ s.tokens = 0 := Nat.ne_of_gt hr.tokens_pos
  obtain ⟨_, _, _, _, hcolumns⟩ := (gatedSizes_eq_ok_iff ..).mp hsizes
  have hsize := (tokenCall s batch first r false).oblivious_slotProducts.size_after w
  have hfirst := ha.slotProducts_eq
  have hactivate := activate_eq hr ha hcolumns hfirst
  rcases hrun : (tokenCall s batch first r false).slotProducts w with ⟨outcome, after⟩
  rw [hrun] at hsize hfirst
  obtain rfl := hfirst
  simp only [gated, hsizes, if_neg htokens, (route_eq_ok_iff ..).mpr hr, hrun, hactivate]
  exact GroupedCall.oblivious_products _ |>.outcome_congr after w hsize

/-- A gated network computes the row of every token. -/
theorem gated_eq_ok {o₁ o₂ : Operands} {g₁ g₂ : Int} {scales₁ scales₂ : Tensor}
    (hsizes : gatedSizes batch first second = .ok (s, half))
    (hr : Routed batch s.tokens s.experts r)
    (h₁ : (tokenCall s batch first r false).Accepted w o₁ g₁ scales₁)
    (h₂ : (slotCall s batch half (activatedSlots s batch half h₁.contents.weight) second r).Accepted
      w o₂ g₂ scales₂) :
    (gated batch first second w).1 = .ok (tokenwise s batch s.features
      (gatedRow batch.hidden.element batch.selection half h₁.contents.weight
        h₂.contents.weight)) := by
  rw [gated_eq hsizes hr h₁]
  apply (follows_slotCall s batch half _ second r).products_eq hr h₂ rfl fun m e =>
    activatedRow batch.hidden.element half (gateUpRow batch.hidden.element (2 * half)
      (h₁.contents.weight e) (TopK.tokenRow batch.hidden.singles s.features m))
  intro m hm j hj
  exact tokenRow_activatedSlots s batch half h₁.contents.weight hm hj

/-- A gated network with tokens that has a result was routed, and both projections were accepted. -/
theorem exists_accepted_of_gated {out : Tensor} (h : (gated batch first second w).1 = .ok out)
    {tokens features : Nat} (hshape : batch.hidden.shape = [tokens, features])
    (htokens : 0 < tokens) :
    ∃ s half r, gatedSizes batch first second = .ok (s, half) ∧ s.tokens = tokens ∧
      s.features = features ∧ Routed batch s.tokens s.experts r ∧
      ∃ o₁ g₁ scales₁, ∃ h₁ : (tokenCall s batch first r false).Accepted w o₁ g₁ scales₁,
      ∃ o₂ g₂ scales₂, (slotCall s batch half (activatedSlots s batch half h₁.contents.weight)
        second r).Accepted w o₂ g₂ scales₂ := by
  cases hsizes : gatedSizes batch first second with
  | error e => simp only [gated, hsizes, reduceCtorEq] at h
  | ok size =>
    obtain ⟨s, half⟩ := size
    have hsize := ((gatedSizes_eq_ok_iff ..).mp hsizes).1
    rw [hshape, List.cons.injEq, List.cons.injEq] at hsize
    obtain ⟨rfl, rfl, _⟩ := hsize
    cases hroute : route batch s.tokens s.experts with
    | error e =>
      simp only [gated, hsizes, hroute, if_neg (Nat.ne_of_gt htokens), reduceCtorEq] at h
    | ok r =>
      have hr := (route_eq_ok_iff ..).mp hroute
      rcases hfirst : (tokenCall s batch first r false).slotProducts w with ⟨outcome, after⟩
      cases outcome with
      | error e =>
        simp only [gated, hsizes, hroute, hfirst, if_neg (Nat.ne_of_gt htokens), reduceCtorEq] at h
      | ok gateUp =>
        obtain ⟨o₁, g₁, scales₁, h₁⟩ :=
          GroupedCall.exists_accepted_of_execute (congrArg Prod.fst hfirst)
        rw [gated_eq hsizes hr h₁] at h
        obtain ⟨o₂, g₂, scales₂, h₂⟩ := GroupedCall.exists_accepted_of_execute h
        exact ⟨s, half, r, rfl, rfl, rfl, hr, o₁, g₁, scales₁, h₁, o₂, g₂, scales₂, h₂⟩

end

end Forward

end RoutedExperts
