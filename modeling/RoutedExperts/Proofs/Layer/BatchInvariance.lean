import RoutedExperts.Proofs.Layer.PerToken

/-!
# Tokens do not see their batch

`Batch.row` is one token of a batch alone. The token is routed to the same experts with the same
weights (`Routed.logits_row`), its calls are accepted because those of the batch are
(`SameStack.exists_accepted`), and a pass computes the same row for it (`row_tokenwise`). So the row
of a token depends neither on the rest of the batch nor on the block (`Pass.run_row_invariant`).
-/

namespace RoutedExperts

/-! ### Rows -/

namespace Tensor

/-- One row of a tensor, as a tensor with this row only. -/
def row (t : Tensor) (m : Nat) : Tensor :=
  ofFn t.element (1 :: t.shape.tail) fun i => t.get (m * volume t.shape.tail + i)

/-- A row is a matrix of one row. -/
theorem shape_row {t : Tensor} {rows width : Nat} (h : t.shape = [rows, width]) (m : Nat) :
    (t.row m).shape = [1, width] := by
  change 1 :: t.shape.tail = [1, width]
  rw [h, List.tail_cons]

/-- A row of a matrix made from a function is made from the values there. -/
theorem row_ofFn (element : Element) {rows columns m : Nat} (f : Nat → element.Value)
    (hm : m < rows) : (ofFn element [rows, columns] f).row m =
      ofFn element [1, columns] fun i => f (m * columns + i) := by
  apply ofFn_congr
  intro i hi
  have hwidth : volume [rows, columns].tail = columns := Nat.mul_one columns
  have hi : i < volume [1, columns] := hi
  rw [volume_pair, Nat.one_mul] at hi
  change (ofFn element [rows, columns] f).get (m * volume [rows, columns].tail + i) = _
  rw [hwidth, get_ofFn element f (lt_volume_pair hm hi)]

end Tensor

/-- The values of a row of a tensor are those of the row alone. -/
theorem TopK.tokenRow_row {t : Tensor} {rows width m : Nat} (h : t.shape = [rows, width])
    (hm : m < rows) : tokenRow (t.row m).singles width 0 = tokenRow t.singles width m := by
  apply tokenRow_eq (Tensor.shape_row h m) Nat.zero_lt_one (size_tokenRow h hm)
  intro i hi
  have hwidth : volume t.shape.tail = width := by rw [h]; exact Nat.mul_one width
  have hplace : i < volume (1 :: t.shape.tail) := by
    rw [h, List.tail_cons, volume_pair, Nat.one_mul]
    exact hi
  have hsource : m * width + i < volume t.shape := by
    rw [h]
    exact lt_volume_pair hm hi
  rw [getD_tokenRow h hm hi, Nat.zero_mul, Nat.zero_add, Tensor.row,
    Tensor.getD_singles_ofFn _ _ hplace, hwidth, Tensor.getD_singles t hsource]

/-- One token of a batch alone, with a block of its own. -/
def Batch.row (batch : Batch) (m : Nat) (block : Option Block) : Batch where
  hidden := batch.hidden.row m
  gating := batch.gating.row m
  selection := batch.selection
  block := block

/-! ### The routing of a token alone -/

/-- A token alone gets the smallest block. -/
theorem Block.forBatch_one {chosen experts : Nat} (h : chosen ≤ experts) :
    forBatch 1 chosen experts = ⟨16⟩ := by
  have hshare : divUp (1 * chosen) (max experts 1) ≤ 16 := by
    rw [divUp_le_iff (by omega)]
    omega
  simp only [forBatch, sizes, List.find?_cons, hshare, decide_true, Option.getD_some]

/-- No block has fewer than 16 places. -/
theorem Block.le_of_mem_sizes {size : Nat} (h : size ∈ sizes) : 16 ≤ size := by
  rw [mem_sizes_iff] at h
  omega

/-- Every supported block is made of smallest ones. -/
theorem Block.dvd_of_mem_sizes {size : Nat} (h : size ∈ sizes) : 16 ∣ size := by
  rw [mem_sizes_iff] at h
  omega

/-- A block for one token of a batch: the one that is chosen for it, or a supported one in which a
block for each slot leaves the places countable. -/
structure Batch.SuitsRow (batch : Batch) (block : Option Block) : Prop where
  size_mem : (block.getD ⟨16⟩).size ∈ Block.sizes
  places : block = none ∨ batch.selection.count * (block.getD ⟨16⟩).size < twoTo 32

namespace Forward.Routed

variable {batch : Batch} {tokens experts m : Nat} {r r' : Routing} {block : Option Block}

/-- A token alone is routed with the block that it is given, or with the smallest. -/
theorem exists_row (h : Routed batch tokens experts r) (m : Nat) (block : Option Block)
    (hblock : 0 < (block.getD ⟨16⟩).size) :
    ∃ r', Routed (batch.row m block) 1 experts r' ∧ r'.block = block.getD ⟨16⟩ := by
  rw [← Block.forBatch_one h.count_le] at hblock ⊢
  obtain ⟨r', h'⟩ := exists_of_shape (batch.row m block)
    (Tensor.shape_row h.gating_shape m) Nat.zero_lt_one h.count_pos h.count_le hblock
  exact ⟨r', h', h'.block_eq⟩

/-- A token alone has the logits it has in the batch. -/
theorem logits_row (h : Routed batch tokens experts r) (hm : m < tokens) (block : Option Block) :
    logits (batch.row m block) experts 0 = logits batch experts m :=
  TopK.tokenRow_row h.gating_shape hm

/-- A token alone takes no more places than its batch does in blocks that are as large or larger. -/
theorem padded_row_le (h : Routed batch tokens experts r) (hm : m < tokens)
    (h' : Routed (batch.row m block) 1 experts r') (hblock : r'.block.size ∣ r.block.size) :
    r'.alignment.padded ≤ r.alignment.padded := by
  have hinj : Function.Injective fun j => m * batch.selection.count + j := by
    intro i j hij
    simpa using hij
  rw [h.alignment_eq, h'.alignment_eq]
  apply Alignment.padded_ofIds_mono h.block_pos hblock hinj
  intro j id hid
  have hj : j < 1 * batch.selection.count := by
    have hj := (Array.getElem?_eq_some_iff.mp hid).1
    rwa [TopK.size_experts_choice] at hj
  rw [Nat.one_mul] at hj
  have hrow := h'.getElem?_ids Nat.zero_lt_one hj
  rw [Nat.zero_mul, Nat.zero_add, h.logits_row hm, hid] at hrow
  rw [hrow]
  exact h.getElem?_ids hm hj

/-- A token whose batch is routed can be routed alone. -/
theorem exists_row_lt (h : Routed batch tokens experts r) (hm : m < tokens)
    (hpadded : r.alignment.padded < twoTo 32) (hlarge : r.block.size ∈ Block.sizes)
    (hblock : batch.SuitsRow block) :
    ∃ r', Routed (batch.row m block) 1 experts r' ∧ r'.block = block.getD ⟨16⟩ ∧
      r'.alignment.padded < twoTo 32 := by
  obtain ⟨r', h', heq⟩ := h.exists_row m block (Block.pos_of_mem_sizes hblock.size_mem)
  refine ⟨r', h', heq, ?_⟩
  rcases hblock.places with rfl | hplaces
  · have hdvd : r'.block.size ∣ r.block.size := by
      rw [heq]
      exact Block.dvd_of_mem_sizes hlarge
    exact Nat.lt_of_le_of_lt (h.padded_row_le hm h' hdvd) hpadded
  · have hle := h'.padded_le
    rw [heq, Nat.one_mul] at hle
    exact Nat.lt_of_le_of_lt hle hplaces

end Forward.Routed

/-! ### Calls on the same weights -/

namespace GroupedCall

/-- Calls on the same packed weights of the same sizes. -/
structure SameStack (c₁ c₂ : GroupedCall) : Prop where
  columns_eq : c₂.shape.columns = c₁.shape.columns
  rows_eq : c₂.shape.rows = c₁.shape.rows
  experts_eq : c₂.shape.experts = c₁.shape.experts
  packed_eq : c₂.packed = c₁.packed
  scales_eq : c₂.scales = c₁.scales

namespace SameStack

variable {c₁ c₂ : GroupedCall} {w₁ w₂ : Workspace} {o₁ o₂ : Operands} {groupSize : Int}
  {scales : Tensor}

/-- Calls on one stack have one type. -/
theorem holdsType (hs : SameStack c₁ c₂) {type : WeightType} (h : c₁.HoldsType type) :
    c₂.HoldsType type where
  biased := h.biased
  element_eq := by rw [hs.packed_eq, h.element_eq]
  shape_eq := by rw [hs.packed_eq, hs.experts_eq, hs.rows_eq, hs.columns_eq, h.shape_eq]

/-- Calls on one stack have the same groups. -/
theorem holdsGroups (hs : SameStack c₁ c₂) {type : WeightType} {groups : Nat}
    (h : c₁.HoldsGroups type groups groupSize) : c₂.HoldsGroups type groups groupSize where
  shape_eq := by rw [hs.scales_eq, hs.experts_eq, hs.columns_eq, h.shape_eq]
  float := by rw [hs.scales_eq, h.float]
  size_eq := by rw [hs.rows_eq, h.size_eq]
  admitted := h.admitted
  divides := by rw [hs.rows_eq]; exact h.divides

/-- The same weights are read alike in every call. -/
theorem weight_eq (hs : SameStack c₁ c₂) (h₁ : c₁.Accepted w₁ o₁ groupSize scales)
    (h₂ : c₂.Accepted w₂ o₂ groupSize scales) (htype : o₂.type = o₁.type)
    (hgroups : o₂.groups = o₁.groups) : h₂.contents.weight = h₁.contents.weight := by
  funext e k n
  simp only [Contents.weight, Accepted.contents, Engine.expertValues, h₁.words_eq, h₂.words_eq,
    hs.packed_eq, hs.rows_eq, hs.columns_eq, htype, hgroups]

/-- Weights that one call accepts are accepted by every call that follows the routing of a batch and
has room. -/
theorem exists_accepted (hs : SameStack c₁ c₂) (h₁ : c₁.Accepted w₁ o₁ groupSize scales)
    {batch : Batch} {tokens experts : Nat} {r : Routing} (hf : c₂.Follows batch tokens experts r)
    (hr : Forward.Routed batch tokens experts r) (hpadded : r.alignment.padded < twoTo 32)
    (hblock : r.block.size ∈ Block.sizes) (hactivations : c₂.HoldsActivations)
    (hroom : Workspace.required c₁.shape.columns c₁.shape.rows r.block.size ≤ w₂.size) :
    ∃ (o₂ : Operands) (h₂ : c₂.Accepted w₂ o₂ groupSize scales),
      h₂.contents.weight = h₁.contents.weight := by
  have hsound : c₂.shape.Sound := by
    constructor
    · rw [hf.tokens_eq]; exact hr.tokens_pos
    · rw [hs.columns_eq]; exact h₁.sound.columns_pos
    · rw [hs.rows_eq]; exact h₁.sound.rows_pos
    · rw [hs.experts_eq]; exact h₁.sound.experts_pos
    · rw [hf.chosen_eq]; exact hr.count_pos
    · rw [hf.block_eq]; exact hblock
    · rw [hs.columns_eq]; exact h₁.sound.columns_mod
    · rw [hs.rows_eq]; exact h₁.sound.rows_mod
  have hunpermute : ScaleLayout.unpermute c₂.scales c₂.shape.rows c₂.shape.columns groupSize =
      .ok scales := by
    rw [hs.scales_eq, hs.rows_eq, hs.columns_eq, h₁.unpermute_eq]
  have hfits : Workspace.required c₂.shape.columns c₂.shape.rows c₂.shape.block ≤ w₂.size := by
    rwa [hs.columns_eq, hs.rows_eq, hf.block_eq]
  obtain ⟨o₂, h₂, htype, hgroups⟩ := hf.exists_accepted hr hpadded hsound hactivations
    (hs.holdsType h₁.holdsType) (hs.holdsGroups h₁.holdsGroups) hfits hunpermute
  exact ⟨o₂, h₂, hs.weight_eq h₁ h₂ htype hgroups⟩

end SameStack

end GroupedCall

/-! ### Passes -/

namespace PackedWeights

/-- The columns of packed weights, as their scales have them. -/
def columns (w : PackedWeights) : Nat := w.scales.shape.getD 2 0

/-- The rows of packed weights, as their packed words have them. -/
def rows (w : PackedWeights) : Nat := w.packed.shape.getD 1 0 * WeightLayout.tile

/-- The columns of packed weights are those of their scales. -/
theorem columns_eq {w : PackedWeights} {name : String} {columns : Nat}
    (h : Forward.scaleColumns name w.scales = .ok columns) : w.columns = columns := by
  unfold Forward.scaleColumns at h
  split at h
  · rename_i hshape
    rw [PackedWeights.columns, hshape]
    exact Except.ok.inj h
  · cases h

/-- The rows of packed weights are those of their words. -/
theorem rows_eq {w : PackedWeights} {name : String} {experts rows : Nat}
    (h : Forward.packedSize name w.packed = .ok (experts, rows)) : w.rows = rows := by
  unfold Forward.packedSize at h
  split at h
  · rename_i hshape
    rw [PackedWeights.rows, hshape]
    exact (Prod.mk.inj (Except.ok.inj h)).2
  · cases h

end PackedWeights

namespace Forward

/-- A forward pass over its packed weights. -/
inductive Pass where
  | project (weights : PackedWeights)
  | gated (first second : PackedWeights)

namespace Pass

/-- The outcome of a pass over a batch. -/
def run : Pass → Batch → Workspace → Except Error Tensor × Workspace
  | project weights, batch => Forward.project batch weights
  | gated first second, batch => Forward.gated batch first second

/-- The columns of a result for tokens with the given features. -/
def columns (features : Nat) : Pass → Nat
  | project weights => weights.columns
  | gated _ _ => features

/-- The columns and rows of the products of a pass over tokens with the given features. -/
def shapes (features : Nat) : Pass → List (Nat × Nat)
  | project weights => [(weights.columns, features)]
  | gated first second => [(first.columns, features), (features, second.rows)]

/-- All products of a pass fit the workspace. -/
def Fits (p : Pass) (features block : Nat) (w : Workspace) : Prop :=
  ∀ s ∈ p.shapes features, w.fits s.1 s.2 block = true

/-- A projection fits a workspace with room for its one product. -/
theorem fits_project_iff (weights : PackedWeights) (features block : Nat) (w : Workspace) :
    (project weights).Fits features block w ↔
      Workspace.required weights.columns features block ≤ w.size := by
  simp [Fits, shapes, Workspace.fits]

/-- A gated pass fits a workspace with room for both its products. -/
theorem fits_gated_iff (first second : PackedWeights) (features block : Nat) (w : Workspace) :
    (gated first second).Fits features block w ↔
      Workspace.required first.columns features block ≤ w.size ∧
        Workspace.required features second.rows block ≤ w.size := by
  simp [Fits, shapes, Workspace.fits]

/-- What fits a workspace fits a larger one. -/
theorem Fits.mono {p : Pass} {features block : Nat} {w w' : Workspace}
    (h : p.Fits features block w) (hsize : w.size ≤ w'.size) : p.Fits features block w' := by
  intro s hs
  exact decide_eq_true ((of_decide_eq_true (h s hs)).trans hsize)

end Pass

/-- A row that is computed token by token is computed for the token alone. -/
theorem row_tokenwise {s : Sizes} {batch : Batch} {r : Routing} {columns m : Nat}
    (hr : Routed batch s.tokens s.experts r) (hshape : batch.hidden.shape = [s.tokens, s.features])
    (hm : m < s.tokens) (block : Option Block)
    (row : Array Float32 → Array Float32 → Nat → Float32) :
    (tokenwise s batch columns row).row m =
      tokenwise { s with tokens := 1 } (batch.row m block) columns row := by
  rw [tokenwise, Tensor.row_ofFn _ _ hm]
  apply Tensor.ofFn_congr
  intro i hi
  rw [volume_pair, Nat.one_mul] at hi
  have hhidden := TopK.tokenRow_row hshape hm
  rw [rowMajor_div m hi, rowMajor_mod m hi, Nat.div_eq_of_lt hi, Nat.mod_eq_of_lt hi,
    hr.logits_row hm, ← hhidden]
  rfl

section

variable {batch : Batch} {weights first second : PackedWeights} {w w' : Workspace} {out : Tensor}
  {tokens features m : Nat} {block : Option Block}

/-- A projection of a token alone gives the row of the token. -/
theorem project_row (h : (project batch weights w).1 = .ok out)
    (hshape : batch.hidden.shape = [tokens, features]) (hm : m < tokens)
    (hblock : batch.SuitsRow block)
    (hroom : Workspace.required weights.columns features (block.getD ⟨16⟩).size ≤ w'.size) :
    (project (batch.row m block) weights w').1 = .ok (out.row m) := by
  obtain ⟨s, r, hsizes, rfl, rfl, hr, o, groupSize, scales, ha⟩ :=
    exists_accepted_of_project h hshape (Nat.zero_lt_of_lt hm)
  obtain ⟨_, hpacked, hcolumns⟩ := (projectSizes_eq_ok_iff ..).mp hsizes
  rw [project_eq_ok hsizes hr ha, Except.ok.injEq] at h
  subst h
  let alone : Sizes := { s with tokens := 1 }
  have hsizes' : projectSizes (batch.row m block) weights = .ok alone :=
    (projectSizes_eq_ok_iff ..).mpr ⟨Tensor.shape_row hshape m, hpacked, hcolumns⟩
  have hf := follows_tokenCall s batch weights r true
  obtain ⟨r', hr', heq, hpadded⟩ := hr.exists_row_lt hm (hf.padded_lt ha) ha.sound.block_mem hblock
  have hsize := hblock.size_mem
  rw [← heq] at hsize hroom
  rw [PackedWeights.columns_eq hcolumns] at hroom
  have hstack : GroupedCall.SameStack (tokenCall s batch weights r true)
      (tokenCall alone (batch.row m block) weights r' true) := ⟨rfl, rfl, rfl, rfl, rfl⟩
  obtain ⟨o', ha', hweight⟩ := hstack.exists_accepted ha (follows_tokenCall ..) hr' hpadded hsize
    ⟨ha.holdsActivations.activation, Tensor.shape_row hshape m⟩ hroom
  rw [project_eq_ok hsizes' hr' ha', row_tokenwise hr hshape hm block, hweight]
  rfl

/-- A gated network gives the row of a token for the token alone. -/
theorem gated_row (h : (gated batch first second w).1 = .ok out)
    (hshape : batch.hidden.shape = [tokens, features]) (hm : m < tokens)
    (hblock : batch.SuitsRow block)
    (hroom : Workspace.required first.columns features (block.getD ⟨16⟩).size ≤ w'.size ∧
      Workspace.required features second.rows (block.getD ⟨16⟩).size ≤ w'.size) :
    (gated (batch.row m block) first second w').1 = .ok (out.row m) := by
  obtain ⟨s, half, r, hsizes, rfl, rfl, hr, o₁, g₁, scales₁, h₁, o₂, g₂, scales₂, h₂⟩ :=
    exists_accepted_of_gated h hshape (Nat.zero_lt_of_lt hm)
  obtain ⟨_, hfirst, hsecond, hcolumns, hhalf⟩ := (gatedSizes_eq_ok_iff ..).mp hsizes
  rw [gated_eq_ok hsizes hr h₁ h₂, Except.ok.injEq] at h
  subst h
  let alone : Sizes := { s with tokens := 1 }
  have hsizes' : gatedSizes (batch.row m block) first second = .ok (alone, half) :=
    (gatedSizes_eq_ok_iff ..).mpr ⟨Tensor.shape_row hshape m, hfirst, hsecond, hcolumns, hhalf⟩
  have hf := follows_tokenCall s batch first r false
  obtain ⟨r', hr', heq, hpadded⟩ := hr.exists_row_lt hm (hf.padded_lt h₁) h₁.sound.block_mem hblock
  have hsize := hblock.size_mem
  rw [← heq] at hsize hroom
  rw [PackedWeights.columns_eq hcolumns, PackedWeights.rows_eq hsecond] at hroom
  have hstack₁ : GroupedCall.SameStack (tokenCall s batch first r false)
      (tokenCall alone (batch.row m block) first r' false) := ⟨rfl, rfl, rfl, rfl, rfl⟩
  obtain ⟨o₁', h₁', hweight₁⟩ := hstack₁.exists_accepted h₁ (follows_tokenCall ..) hr' hpadded hsize
    ⟨h₁.holdsActivations.activation, Tensor.shape_row hshape m⟩ hroom.1
  have hstack₂ : GroupedCall.SameStack
      (slotCall s batch half (activatedSlots s batch half h₁.contents.weight) second r)
      (slotCall alone (batch.row m block) half
        (activatedSlots alone (batch.row m block) half h₁'.contents.weight) second r') :=
    ⟨rfl, rfl, rfl, rfl, rfl⟩
  obtain ⟨o₂', h₂', hweight₂⟩ := hstack₂.exists_accepted h₂ (follows_slotCall ..) hr' hpadded hsize
    ⟨h₁.holdsActivations.activation, rfl⟩ hroom.2
  rw [gated_eq_ok hsizes' hr' h₁' h₂', row_tokenwise hr hshape hm block, hweight₂, hweight₁]
  rfl

/-- A projection that has a result has a row for every token, and room for the smallest blocks. -/
theorem project_fits (h : (project batch weights w).1 = .ok out)
    (hshape : batch.hidden.shape = [tokens, features]) (htokens : 0 < tokens) :
    out.shape = [tokens, weights.columns] ∧
      Workspace.required weights.columns features 16 ≤ w.size := by
  obtain ⟨s, r, hsizes, rfl, rfl, hr, o, groupSize, scales, ha⟩ :=
    exists_accepted_of_project h hshape htokens
  obtain ⟨_, _, hcolumns⟩ := (projectSizes_eq_ok_iff ..).mp hsizes
  rw [project_eq_ok hsizes hr ha, Except.ok.injEq] at h
  subst h
  have hblock := Block.le_of_mem_sizes ha.sound.block_mem
  rw [PackedWeights.columns_eq hcolumns]
  exact ⟨rfl, (Workspace.required_mono _ _ hblock).trans ha.room⟩

/-- A gated network that has a result has a row for every token, and room for the smallest blocks
in both projections. -/
theorem gated_fits (h : (gated batch first second w).1 = .ok out)
    (hshape : batch.hidden.shape = [tokens, features]) (htokens : 0 < tokens) :
    out.shape = [tokens, features] ∧
      Workspace.required first.columns features 16 ≤ w.size ∧
      Workspace.required features second.rows 16 ≤ w.size := by
  obtain ⟨s, half, r, hsizes, rfl, rfl, hr, o₁, g₁, scales₁, h₁, o₂, g₂, scales₂, h₂⟩ :=
    exists_accepted_of_gated h hshape htokens
  obtain ⟨_, _, hsecond, hcolumns, _⟩ := (gatedSizes_eq_ok_iff ..).mp hsizes
  rw [gated_eq_ok hsizes hr h₁ h₂, Except.ok.injEq] at h
  subst h
  have hblock := Block.le_of_mem_sizes h₁.sound.block_mem
  rw [PackedWeights.columns_eq hcolumns, PackedWeights.rows_eq hsecond]
  exact ⟨rfl, (Workspace.required_mono _ _ hblock).trans h₁.room,
    (Workspace.required_mono _ _ hblock).trans h₂.room⟩

end

namespace Pass

variable {p : Pass} {batch : Batch} {w w' : Workspace} {out : Tensor} {tokens features m : Nat}

/-- A token alone has the row that it has in its batch. -/
theorem run_row_of_fits (h : (p.run batch w).1 = .ok out)
    (hshape : batch.hidden.shape = [tokens, features]) (hm : m < tokens) {block : Option Block}
    (hblock : batch.SuitsRow block) (hfits : p.Fits features (block.getD ⟨16⟩).size w') :
    (p.run (batch.row m block) w').1 = .ok (out.row m) := by
  cases p with
  | project weights => exact project_row h hshape hm hblock ((fits_project_iff ..).mp hfits)
  | gated first second => exact gated_row h hshape hm hblock ((fits_gated_iff ..).mp hfits)

/-- A pass that has a result fits its workspace in the smallest blocks, and the result has a row for
every token. -/
theorem shape_and_fits (h : (p.run batch w).1 = .ok out)
    (hshape : batch.hidden.shape = [tokens, features]) (htokens : 0 < tokens) :
    out.shape = [tokens, p.columns features] ∧ p.Fits features 16 w := by
  cases p with
  | project weights =>
    rw [fits_project_iff]
    exact project_fits h hshape htokens
  | gated first second =>
    rw [fits_gated_iff]
    exact gated_fits h hshape htokens

/-- A token alone has the row that it has in its batch, in every workspace that is as large. -/
theorem run_row_alone (h : (p.run batch w).1 = .ok out)
    (hshape : batch.hidden.shape = [tokens, features]) (hm : m < tokens)
    (hsize : w.size ≤ w'.size) : (p.run (batch.row m none) w').1 = .ok (out.row m) := by
  have hfits := (shape_and_fits h hshape (Nat.zero_lt_of_lt hm)).2
  exact run_row_of_fits h hshape hm ⟨by decide, Or.inl rfl⟩ (hfits.mono hsize)

/-- The row of a token depends neither on the other tokens of the batch, nor on their order, nor on
the block: the token alone has it, in the block that is chosen for it and in every supported block
that fits, and so has every batch with this token. -/
theorem run_row_invariant (h : (p.run batch w).1 = .ok out)
    (hshape : batch.hidden.shape = [tokens, features]) (hm : m < tokens) :
    out.shape = [tokens, p.columns features] ∧
      (∀ w' : Workspace, w.size ≤ w'.size →
        (p.run (batch.row m none) w').1 = .ok (out.row m)) ∧
      (∀ (b : Block) (w' : Workspace), b.size ∈ Block.sizes → p.Fits features b.size w' →
        batch.selection.count * b.size < twoTo 32 →
          (p.run (batch.row m (some b)) w').1 = .ok (out.row m)) ∧
      ∀ (batch' : Batch) (w' : Workspace) (out' : Tensor) (tokens' m' : Nat),
        (p.run batch' w').1 = .ok out' → batch'.hidden.shape = [tokens', features] →
          m' < tokens' → batch'.row m' none = batch.row m none → out'.row m' = out.row m := by
  refine ⟨(shape_and_fits h hshape (Nat.zero_lt_of_lt hm)).1, ?_, ?_, ?_⟩
  · intro w' hsize
    exact run_row_alone h hshape hm hsize
  · intro b w' hblock hfits hplaces
    exact run_row_of_fits h hshape hm ⟨hblock, Or.inr hplaces⟩ hfits
  · intro batch' w' out' tokens' m' h' hshape' hm' hrow
    -- both rows are those of the same token alone, in a workspace that is large enough for both
    have hsize := Workspace.size_ofSize (max w.size w'.size)
    have halone := run_row_alone h hshape hm ((Nat.le_max_left ..).trans_eq hsize.symm)
    have halone' := run_row_alone h' hshape' hm' ((Nat.le_max_right ..).trans_eq hsize.symm)
    rw [hrow, halone, Except.ok.injEq] at halone'
    exact halone'.symm

/-- Packed weights of three experts with 64 rows. -/
def sampleStack (columns : Nat) : PackedWeights where
  packed := .ofFn .u32 [3, 4, 2 * columns] fun i => i.toUInt32
  scales := .ofFn .f32 [3, 2, columns] fun i => Single.ofInt i

/-- Two tokens in blocks that are larger than a token alone would get. -/
def sampleBatch : Batch where
  hidden := .ofFn .bf16 [2, 64] fun i => Brain.ofSingle (Single.ofInt i)
  gating := .ofFn .f32 [2, 3] fun i => Single.ofInt i
  selection := ⟨2, true⟩
  block := some ⟨32⟩

/-- A gated network over sample weights. -/
def samplePass : Pass := .gated (sampleStack 128) (sampleStack 64)

/-- Room for the sample in all blocks. -/
def sampleRoom : Workspace := .forShapes [(128, 64), (64, 64)]

/-- A call on the sample stack that follows the routing of the sample batch is accepted. -/
theorem exists_accepted_sampleStack {c : GroupedCall} {w : Workspace} {r : Routing} (columns : Nat)
    (hcolumns : columns % 64 = 0) (hpos : 0 < columns)
    (hstack : c.packed = (sampleStack columns).packed ∧ c.scales = (sampleStack columns).scales)
    (hshape : c.shape.experts = 3 ∧ c.shape.rows = 64 ∧ c.shape.columns = columns)
    (hf : c.Follows sampleBatch 2 3 r) (hr : Routed sampleBatch 2 3 r)
    (hactivations : c.HoldsActivations)
    (hroom : Workspace.required columns 64 32 ≤ w.size) :
    ∃ o scales, c.Accepted w o 32 scales := by
  obtain ⟨hpacked, hscales⟩ := hstack
  obtain ⟨hexperts, hrows, rfl⟩ := hshape
  have hblock : r.block.size = 32 := by rw [hr.block_eq]; rfl
  have hsound : c.shape.Sound := by
    constructor
    · rw [hf.tokens_eq]; decide
    · exact hpos
    · rw [hrows]; decide
    · rw [hexperts]; decide
    · rw [hf.chosen_eq]; decide
    · rw [hf.block_eq, hblock]; decide
    · exact hcolumns
    · rw [hrows]
  have htype : c.HoldsType .uint4b8 := by
    refine ⟨rfl, by rw [hpacked]; rfl, ?_⟩
    have hwords : 2 * c.shape.columns = c.shape.columns * 16 / 8 := by omega
    rw [hpacked, hexperts, hrows, sampleStack, hwords]
    rfl
  have hgroups : c.HoldsGroups .uint4b8 2 32 := by
    constructor
    · rw [hscales, hexperts]; rfl
    · rw [hscales]; rfl
    · rw [hrows]; rfl
    · decide
    · rw [hrows]; exact fun _ => rfl
  obtain ⟨scales, hunpermute⟩ := ScaleLayout.exists_move hgroups.shape_eq hcolumns
    (ScaleOrder.ofGroupSize c.shape.rows 32) (ScaleOrder.ofGroupSize c.shape.rows 32).target
  have hpadded := hr.padded_le
  rw [hblock] at hpadded
  have hroom : Workspace.required c.shape.columns c.shape.rows c.shape.block ≤ w.size := by
    rwa [hrows, hf.block_eq, hblock]
  obtain ⟨o, ha, _⟩ := hf.exists_accepted hr (Nat.lt_of_le_of_lt hpadded (by decide)) hsound
    hactivations htype hgroups hroom hunpermute
  exact ⟨o, scales, ha⟩

/-- The sample pass runs on the sample batch. -/
theorem exists_run_samplePass : ∃ out, (samplePass.run sampleBatch sampleRoom).1 = .ok out := by
  let s : Sizes := ⟨2, 64, 3, 128⟩
  have hsizes : gatedSizes sampleBatch (sampleStack 128) (sampleStack 64) = .ok (s, 64) := rfl
  obtain ⟨r, hr⟩ := Routed.exists_of_shape sampleBatch (rfl : _ = [2, 3]) (by decide)
    (by decide) (by decide) (by decide)
  have hsize : sampleRoom.size = 20480 := Workspace.size_ofSize _
  obtain ⟨o₁, scales₁, h₁⟩ := exists_accepted_sampleStack 128 rfl (by decide) ⟨rfl, rfl⟩
    ⟨rfl, rfl, rfl⟩ (follows_tokenCall s sampleBatch (sampleStack 128) r false) hr ⟨rfl, rfl⟩
    (Nat.le_trans (by decide : Workspace.required 128 64 32 ≤ 20480) hsize.ge)
  obtain ⟨o₂, scales₂, h₂⟩ := exists_accepted_sampleStack 64 rfl (by decide) ⟨rfl, rfl⟩
    ⟨rfl, rfl, rfl⟩ (follows_slotCall s sampleBatch 64
      (activatedSlots s sampleBatch 64 h₁.contents.weight) (sampleStack 64) r) hr ⟨rfl, rfl⟩
    (Nat.le_trans (by decide : Workspace.required 64 64 32 ≤ 20480) hsize.ge)
  exact ⟨_, gated_eq_ok hsizes hr h₁ h₂⟩

/-- The second token of the sample batch has the same row alone, in its own block size and in the
largest. -/
theorem run_row_invariant_samplePass : ∃ out, (samplePass.run sampleBatch sampleRoom).1 = .ok out ∧
    sampleBatch.hidden.shape = [2, 64] ∧ out.shape = [2, 64] ∧
      (samplePass.run (sampleBatch.row 1 none) sampleRoom).1 = .ok (out.row 1) ∧
      (samplePass.run (sampleBatch.row 1 (some ⟨64⟩)) sampleRoom).1 = .ok (out.row 1) := by
  obtain ⟨out, hout⟩ := exists_run_samplePass
  have hsize : sampleRoom.size = 20480 := Workspace.size_ofSize _
  obtain ⟨hshape, halone, hpinned, _⟩ := run_row_invariant hout (rfl : _ = [2, 64])
    (by decide : 1 < 2)
  have hfits : samplePass.Fits 64 64 sampleRoom := by
    rw [samplePass, fits_gated_iff, hsize]
    decide
  exact ⟨out, hout, rfl, hshape, halone _ (Nat.le_refl _),
    hpinned ⟨64⟩ _ (by decide) hfits (by decide)⟩

end Pass

end Forward

end RoutedExperts
