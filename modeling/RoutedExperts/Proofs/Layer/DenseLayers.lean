import RoutedExperts.Layer.Basic
import RoutedExperts.Proofs.Layer.PerToken
import RoutedExperts.Proofs.Product.Acceptance
import RoutedExperts.Proofs.Product.StoredWeights

/-!
# Layers of dense weights

A layer that could be built from dense weights is never in the way of a pass. Its few checks at
construction leave it with stacks of exactly the sizes that its settings name and with room for both
projections in every supported block (`Layer.built_ofDense`), and no pass changes that
(`Layer.Built.after`). So a pass is refused only for what it is given or for a setting that says how
tokens are routed (`Layer.Built.refusal_of_forward_eq_error`).
-/

namespace RoutedExperts

/-- A shape read backwards has as many entries. -/
theorem volume_reverse (shape : List Nat) : volume shape.reverse = volume shape :=
  (List.reverse_perm shape).foldr_eq 1

/-! ### Packed stacks -/

namespace Experts

/-- The packed form of a stack of weights with the given sizes. -/
def IsStack (x : Experts) (experts rows columns : Nat) : Prop :=
  ∃ weights type groupSize, quantize weights type groupSize = .ok x ∧
    weights.shape = [experts, rows, columns]

/-- The part of packed experts that a pass reads. -/
def stored (x : Experts) : PackedWeights := ⟨x.packed, x.scales⟩

namespace IsStack

variable {x : Experts} {experts rows columns : Nat} (h : x.IsStack experts rows columns)

include h

/-- A packed stack was of a supported shape. -/
theorem exists_packable : ∃ type groupSize, Support.Packable type rows columns groupSize := by
  obtain ⟨weights, type, groupSize, hx, hshape⟩ := h
  exact ⟨type, groupSize, ((quantize_eq_ok_iff hshape x).mp hx).1⟩

/-- The size of a packed stack is read off its words. -/
theorem packedSize_eq (name : String) : Forward.packedSize name x.packed = .ok (experts, rows) := by
  obtain ⟨weights, type, groupSize, hx, hshape⟩ := h
  obtain ⟨_, hpacked, _⟩ := shapes_of_quantize hx hshape
  have hrows := ((quantize_eq_ok_iff hshape x).mp hx).1.rows_mod
  have htiles : rows / WeightLayout.tile * WeightLayout.tile = rows := by
    rw [WeightLayout.tile]
    omega
  simp only [Forward.packedSize, hpacked, packedShape, htiles]

/-- The columns of a packed stack are read off its scales. -/
theorem scaleColumns_eq (name : String) : Forward.scaleColumns name x.scales = .ok columns := by
  obtain ⟨weights, type, groupSize, hx, hshape⟩ := h
  obtain ⟨_, _, groups, hscales⟩ := shapes_of_quantize hx hshape
  simp only [Forward.scaleColumns, hscales]

end IsStack

/-- The packed shape tells the experts and the columns of a stack, and its rows up to a tile. -/
theorem sizes_of_packedShape_eq {type : WeightType} {experts rows columns : Nat}
    {experts' rows' columns' : Nat}
    (h : packedShape experts rows columns type = packedShape experts' rows' columns' type) :
    experts = experts' ∧ rows / 16 = rows' / 16 ∧ columns = columns' := by
  simp only [packedShape, WeightLayout.tile, List.cons.injEq, and_true] at h
  obtain ⟨hexperts, hrows, hcolumns⟩ := h
  refine ⟨hexperts, hrows, ?_⟩
  rcases type.packFactor_mem with hf | hf
  · rw [hf] at hcolumns
    omega
  · rw [hf] at hcolumns
    omega

/-- A routed call on a packed stack is accepted if its block is supported, its activations are and
it has room. -/
theorem IsStack.exists_accepted {x : Experts} {c : GroupedCall} {w : Workspace} {batch : Batch}
    {tokens experts : Nat} {r : Routing}
    (h : x.IsStack c.shape.experts c.shape.rows c.shape.columns) (hpacked : c.packed = x.packed)
    (hscales : c.scales = x.scales) (hf : c.Follows batch tokens experts r)
    (hr : Forward.Routed batch tokens experts r) (hpadded : r.alignment.padded < twoTo 32)
    (hblock : r.block.size ∈ Block.sizes) (hactivations : c.HoldsActivations)
    (hroom : Workspace.required c.shape.columns c.shape.rows c.shape.block ≤ w.size) :
    ∃ o size scales, c.Accepted w o size scales := by
  obtain ⟨weights, type, groupSize, hx, hshape⟩ := h
  obtain ⟨slotWeights, hweights⟩ := hf.exists_holdsWeights hr
  have hexperts : 0 < c.shape.experts := hf.experts_eq ▸ hr.experts_pos
  exact GroupedCall.exists_accepted_of_holds (holds_quantized hx hshape hexperts) hpacked hscales
    (hf.tokens_eq ▸ hr.tokens_pos) hexperts (hf.chosen_eq ▸ hr.count_pos) (hf.block_eq ▸ hblock)
    hactivations (hf.valid hr hpadded) hweights hroom

end Experts

/-! ### Calls that are refused early -/

namespace GroupedCall

variable {c : GroupedCall}

/-- A product of possible sizes is refused for its block before anything else. -/
theorem prepare_of_block_not_mem (htokens : 0 < c.shape.tokens) (hcolumns : 0 < c.shape.columns)
    (hrows : 0 < c.shape.rows) (hexperts : 0 < c.shape.experts) (hchosen : 0 < c.shape.chosen)
    (hblock : c.shape.block ∉ Block.sizes) (w : Workspace) :
    c.prepare w = .error (.blockSize c.shape.block) := by
  have hsizes : ¬ (c.shape.tokens = 0 ∨ c.shape.columns = 0 ∨ c.shape.rows = 0) := by omega
  have hcheck : c.shape.check = .error (.blockSize c.shape.block) := by
    simp only [ProductShape.check, if_neg hsizes, if_neg (Nat.ne_of_gt hexperts),
      if_neg (Nat.ne_of_gt hchosen), Block.check, List.contains_iff_mem, if_neg hblock, error_bind]
  simp only [prepare, hcheck, error_bind]

/-- A product of sound sizes is refused for the type of its activations next. -/
theorem prepare_of_not_activation (hs : c.shape.Sound)
    (h : c.activations.element.isActivation = false) (w : Workspace) :
    c.prepare w = .error (.activationElement c.activations.element) := by
  have hcheck := (ProductShape.check_eq_ok_iff _).mpr hs
  simp only [prepare, checkActivations, h, Bool.not_false, ite_true, throw_eq_error, error_bind,
    bind_eq_error_iff]
  exact .inr ⟨(), hcheck, trivial⟩

end GroupedCall

namespace Forward

variable {batch : Batch} {first second : PackedWeights} {s : Sizes} {half : Nat} {e : Error}

/-- A gated pass that cannot be routed is refused with that error and leaves the workspace as it
was. -/
theorem gated_of_route_eq_error (hsizes : gatedSizes batch first second = .ok (s, half))
    (htokens : 0 < s.tokens) (hroute : route batch s.tokens s.experts = .error e) (w : Workspace) :
    gated batch first second w = (.error e, w) := by
  simp only [gated, hsizes, if_neg (Nat.ne_of_gt htokens), hroute]

/-- A gated pass whose first product is refused leaves the workspace as it was. -/
theorem gated_of_prepare_eq_error {r : Routing} {w : Workspace}
    (hsizes : gatedSizes batch first second = .ok (s, half))
    (hr : Routed batch s.tokens s.experts r)
    (hprepare : (tokenCall s batch first r false).prepare w = .error e) :
    gated batch first second w = (.error e, w) := by
  have hfirst : (tokenCall s batch first r false).slotProducts w = (.error e, w) := by
    simp only [GroupedCall.slotProducts, GroupedCall.execute, hprepare, Except.map]
  simp only [gated, hsizes, if_neg (Nat.ne_of_gt hr.tokens_pos), (route_eq_ok_iff ..).mpr hr,
    hfirst]

end Forward

/-! ### What a built layer keeps -/

namespace Layer

/-- A layer with packed stacks of the sizes in its settings, and a workspace of the size that goes
with them. -/
structure Built (s : LayerSettings) (l : Layer) : Prop where
  settings_eq : l.settings = s
  gateUp_stack : l.gateUp.IsStack s.experts s.hidden s.gateUpColumns
  down_stack : l.down.IsStack s.experts s.intermediate s.hidden
  size_workspace : l.workspace.size = (workspaceFor s).size

/-- The dense weights of a layer have exactly the sizes in its settings. -/
theorem shapes_of_packedShape {s : LayerSettings} {type : WeightType} {groupSize : Int}
    {gateUp down : Tensor} {x₁ x₂ : Experts}
    (hx₁ : Experts.quantize gateUp type groupSize = .ok x₁)
    (hx₂ : Experts.quantize down type groupSize = .ok x₂)
    (h₁ : x₁.packed.shape = Experts.packedShape s.experts s.hidden s.gateUpColumns type)
    (h₂ : x₂.packed.shape = Experts.packedShape s.experts s.intermediate s.hidden type) :
    gateUp.shape = [s.experts, s.hidden, s.gateUpColumns] ∧
      down.shape = [s.experts, s.intermediate, s.hidden] := by
  obtain ⟨experts₁, rows₁, columns₁, hshape₁⟩ := Experts.exists_shape_of_quantize hx₁
  obtain ⟨experts₂, rows₂, columns₂, hshape₂⟩ := Experts.exists_shape_of_quantize hx₂
  rw [(Experts.shapes_of_quantize hx₁ hshape₁).2.1] at h₁
  rw [(Experts.shapes_of_quantize hx₂ hshape₂).2.1] at h₂
  obtain ⟨rfl, hrows₁, rfl⟩ := Experts.sizes_of_packedShape_eq h₁
  obtain ⟨rfl, hrows₂, rfl⟩ := Experts.sizes_of_packedShape_eq h₂
  have hp₁ := ((Experts.quantize_eq_ok_iff hshape₁ x₁).mp hx₁).1
  have hp₂ := ((Experts.quantize_eq_ok_iff hshape₂ x₂).mp hx₂).1
  -- The columns of one projection are the features of the other, so that both are whole granules
  -- and the count of tiles leaves no remainder.
  have hhidden := hp₂.columns_mod
  have hcolumns := hp₁.columns_mod
  have hmod₁ := hp₁.rows_mod
  have hmod₂ := hp₂.rows_mod
  rw [LayerSettings.gateUpColumns] at hcolumns
  have hfirst : rows₁ = s.hidden := by omega
  have hsecond : rows₂ = s.intermediate := by omega
  rw [hshape₁, hshape₂, hfirst, hsecond]
  exact ⟨rfl, rfl⟩

/-- Dense weights make a layer exactly when the settings are valid and both stacks can be packed and
have the sizes in the settings. -/
theorem ofDense_eq_ok_iff (s : LayerSettings) (gateUp down : Tensor) (l : Layer) :
    ofDense s gateUp down = .ok l ↔ ∃ type x₁ x₂, s.quant.validate none = .ok type ∧
      Experts.quantize gateUp type s.quant.groupSize = .ok x₁ ∧
      Experts.quantize down type s.quant.groupSize = .ok x₂ ∧
      gateUp.shape = [s.experts, s.hidden, s.gateUpColumns] ∧
      down.shape = [s.experts, s.intermediate, s.hidden] ∧ l = ⟨s, x₁, x₂, workspaceFor s⟩ := by
  simp only [ofDense, ofExperts, checkExperts, error_bind, pure_eq_ok, throw_eq_error,
    bind_eq_ok_iff, refuse_eq_ok_iff, ne_eq, not_not, Except.ok.injEq]
  constructor
  · rintro ⟨type, htype, x₁, hx₁, x₂, hx₂, type', htype', ⟨⟩, ⟨_, h₁, _⟩, ⟨⟩, ⟨_, h₂, _⟩, rfl⟩
    obtain rfl : type = type' := Except.ok.inj (htype.symm.trans htype')
    obtain ⟨hgateUp, hdown⟩ := shapes_of_packedShape hx₁ hx₂ h₁ h₂
    exact ⟨type, x₁, x₂, htype, hx₁, hx₂, hgateUp, hdown, rfl⟩
  · rintro ⟨type, x₁, x₂, htype, hx₁, hx₂, hgateUp, hdown, rfl⟩
    obtain ⟨htype₁, h₁, _⟩ := Experts.shapes_of_quantize hx₁ hgateUp
    obtain ⟨htype₂, h₂, _⟩ := Experts.shapes_of_quantize hx₂ hdown
    exact ⟨type, htype, x₁, hx₁, x₂, hx₂, type, htype, (), ⟨htype₁, h₁, trivial⟩, (),
      ⟨htype₂, h₂, trivial⟩, rfl⟩

/-- Building a layer from dense weights gives a built one. -/
theorem built_ofDense {s : LayerSettings} {gateUp down : Tensor} {l : Layer}
    (h : ofDense s gateUp down = .ok l) : Built s l := by
  obtain ⟨type, x₁, x₂, _, hx₁, hx₂, hgateUp, hdown, rfl⟩ := (ofDense_eq_ok_iff ..).mp h
  exact ⟨rfl, ⟨gateUp, type, _, hx₁, hgateUp⟩, ⟨down, type, _, hx₂, hdown⟩, rfl⟩

/-- The layer after a pass, whatever came of it. -/
def next (l : Layer) (pass : Tensor × Tensor) : Layer := (l.forward pass.1 pass.2).2

/-- The layer after a history of passes. -/
def after (l : Layer) (passes : List (Tensor × Tensor)) : Layer := passes.foldl next l

namespace Built

variable {s : LayerSettings} {l : Layer}

/-- A pass writes to the workspace and to nothing else. -/
theorem next (h : Built s l) (pass : Tensor × Tensor) : Built s (l.next pass) := by
  unfold Layer.next forward
  split
  · exact h
  · rename_i batch _
    have hsize := (Forward.oblivious_gated batch ⟨l.gateUp.packed, l.gateUp.scales⟩
      ⟨l.down.packed, l.down.scales⟩).size_after l.workspace
    exact ⟨h.settings_eq, h.gateUp_stack, h.down_stack, hsize.trans h.size_workspace⟩

/-- A built layer stays built, whatever passes are made. -/
theorem after (h : Built s l) (passes : List (Tensor × Tensor)) : Built s (l.after passes) := by
  induction passes generalizing l with
  | nil => exact h
  | cons pass passes ih => exact ih (h.next pass)

end Built

/-! ### Which passes run -/

/-- The batch of hidden states with the given number of rows. -/
def rowBatch (s : LayerSettings) (hidden logits : Tensor) (tokens : Nat) : Batch where
  hidden := hidden.reshape [tokens, s.hidden]
  gating := logits
  selection := ⟨s.chosen, s.renormalize⟩
  block := s.block

/-- The sizes of the first projection of a pass. -/
def sizesFor (s : LayerSettings) (tokens : Nat) : Forward.Sizes :=
  ⟨tokens, s.hidden, s.experts, s.gateUpColumns⟩

/-- A pass that fits the settings of its layer. -/
structure Suits (s : LayerSettings) (tokens features : Nat) (hidden logits : Tensor) : Prop where
  features_eq : features = s.hidden
  element_eq : hidden.element = .f16 ∨ hidden.element = .bf16 ∨ hidden.element = .f32
  logits_shape : logits.shape = [tokens, s.experts]
  chosen_pos : 1 ≤ s.chosen
  chosen_le : s.chosen ≤ s.experts
  block_mem : s.block = none ∨ ∃ b, s.block = some b ∧ b.size ∈ Block.sizes

/-- The errors with which a pass that does not fit is refused. -/
inductive Refusal (s : LayerSettings) (tokens features : Nat) (hidden logits : Tensor) :
    Error → Prop
  | features (h : features ≠ s.hidden) :
    Refusal s tokens features hidden logits (.hiddenFeatures features s.hidden)
  | logits (h : logits.shape ≠ [tokens, s.experts]) :
    Refusal s tokens features hidden logits (.gatingShape logits.shape tokens s.experts)
  | chosen (h : ¬ (1 ≤ s.chosen ∧ s.chosen ≤ s.experts)) :
    Refusal s tokens features hidden logits (.chosenCount s.chosen s.experts)
  | emptyBlock (b : Block) (h : s.block = some b) (hsize : b.size = 0) :
    Refusal s tokens features hidden logits (.alignment b.size s.experts)
  | block (b : Block) (h : s.block = some b) (hsize : b.size ∉ Block.sizes) :
    Refusal s tokens features hidden logits (.blockSize b.size)
  | element (h : hidden.element.isActivation = false) :
    Refusal s tokens features hidden logits (.activationElement hidden.element)

/-- The places of the grouped slots of a pass are counted by 32-bit words. -/
def Counted (s : LayerSettings) (tokens : Nat) (logits : Tensor) : Prop :=
  ∀ choice a, TopK.select logits ⟨s.chosen, s.renormalize⟩ = .ok choice →
    Alignment.ofTensor choice.experts (s.blockFor tokens).size s.experts = .ok a →
      a.padded < twoTo 32

variable {s : LayerSettings} {l : Layer} {hidden logits : Tensor} {tokens features : Nat}
  {leading : List Nat} {r : Routing} {e : Error}

/-- A block size that suits is one of the listed. -/
theorem Suits.size_mem (h : Suits s tokens features hidden logits) {b : Block}
    (hb : s.block = some b) : b.size ∈ Block.sizes := by
  rcases h.block_mem with hnone | ⟨b', hb', hmem⟩
  · rw [hb] at hnone
    cases hnone
  · rw [hb] at hb'
    cases hb'
    exact hmem

/-- What is refused does not suit the layer. -/
theorem Refusal.not_suits (h : Refusal s tokens features hidden logits e) :
    ¬ Suits s tokens features hidden logits := by
  intro hs
  cases h with
  | features h => exact h hs.features_eq
  | logits h => exact h hs.logits_shape
  | chosen h => exact h ⟨hs.chosen_pos, hs.chosen_le⟩
  | emptyBlock b h hsize =>
    have hmem := hs.size_mem h
    rw [hsize] at hmem
    exact absurd hmem (by decide)
  | block b h hsize => exact hsize (hs.size_mem h)
  | element h =>
    rw [(Element.isActivation_iff _).mpr hs.element_eq] at h
    cases h

/-- Only a fixed block can be one that is not supported. -/
theorem block_eq_of_not_mem (h : (s.blockFor tokens).size ∉ Block.sizes) :
    s.block = some (s.blockFor tokens) := by
  unfold LayerSettings.blockFor at h ⊢
  cases hb : s.block with
  | none =>
    rw [hb] at h
    exact absurd (Block.forBatch_mem_sizes ..) h
  | some b => rfl

/-- A tensor with some features is taken as a batch of its rows exactly if these are the features of
the layer. -/
theorem batch_eq (hs : l.settings = s) (hshape : hidden.shape = leading ++ [features])
    (logits : Tensor) :
    l.batch hidden logits = if features ≠ s.hidden then .error (.hiddenFeatures features s.hidden)
      else .ok (rowBatch s hidden logits (volume leading)) := by
  have hreverse : hidden.shape.reverse = features :: leading.reverse := by
    rw [hshape, List.reverse_append]
    rfl
  by_cases hf : features = s.hidden
  · simp only [batch, hreverse, hs, volume_reverse, hf, ne_eq, not_true_eq_false, ite_false]
    rfl
  · simp only [batch, hreverse, hs, hf, ne_eq, not_false_eq_true, ite_true]

/-- Routing a pass of tokens fails only for what does not fit. -/
theorem refusal_of_route_eq_error (htokens : 0 < tokens)
    (h : Forward.route (rowBatch s hidden logits tokens) tokens s.experts = .error e) :
    Refusal s tokens features hidden logits e := by
  simp only [Forward.route, error_bind, throw_eq_error, pure_eq_ok, bind_eq_error_iff,
    refuse_eq_error_iff] at h
  rcases h with ⟨hshape, rfl⟩ | ⟨hshape, hselect | ⟨choice, hchoice, halign | ⟨a, _, h⟩⟩⟩
  · exact .logits hshape
  · rw [ne_eq, not_not] at hshape
    obtain ⟨hcount, rfl⟩ := (TopK.select_eq_error_iff hshape htokens ..).mp hselect
    exact .chosen hcount
  · rw [ne_eq, not_not] at hshape
    obtain ⟨hpos, hle, _, rfl⟩ := (TopK.select_eq_ok_iff hshape ..).mp hchoice
    have hids : (TopK.choice logits ⟨s.chosen, s.renormalize⟩ tokens s.experts).experts.shape =
      [tokens, s.chosen] := rfl
    obtain ⟨hzero, rfl⟩ := (Alignment.ofTensor_eq_error_iff hids ..).mp halign
    have hexperts : s.experts ≠ 0 := Nat.ne_of_gt (Nat.lt_of_lt_of_le hpos hle)
    have hsize : (s.blockFor tokens).size = 0 := hzero.resolve_right hexperts
    have hmem : (s.blockFor tokens).size ∉ Block.sizes := by
      rw [hsize]
      decide
    exact .emptyBlock _ (block_eq_of_not_mem hmem) hsize
  · cases h

/-- The places are counted if one block for each slot leaves them so. -/
theorem counted_of_slots_lt (hshape : logits.shape = [tokens, s.experts])
    (h : tokens * s.chosen * (s.blockFor tokens).size < twoTo 32) : Counted s tokens logits := by
  intro choice a hselect hgroup
  obtain ⟨_, _, _, rfl⟩ := (TopK.select_eq_ok_iff hshape ..).mp hselect
  obtain ⟨hblock, _, rfl⟩ :=
    (Alignment.ofTensor_eq_ok_iff (rfl : _ = [tokens, s.chosen]) ..).mp hgroup
  have hle := Alignment.padded_ofIds_le hblock s.experts
    (TopK.choice logits ⟨s.chosen, s.renormalize⟩ tokens s.experts).experts.ints
  rw [TopK.size_experts_choice] at hle
  exact Nat.lt_of_le_of_lt hle h

/-- The places of a batch that can be counted fit a word. -/
theorem Counted.padded_lt (h : Counted s tokens logits)
    (hr : Forward.Routed (rowBatch s hidden logits tokens) tokens s.experts r) :
    r.alignment.padded < twoTo 32 := by
  have hselect := (TopK.select_eq_ok_iff hr.gating_shape ⟨s.chosen, s.renormalize⟩ _).mpr
    ⟨hr.count_pos, hr.count_le, hr.tokens_pos, rfl⟩
  have hblock : r.block = s.blockFor tokens := hr.block_eq
  apply h _ _ hselect
  exact (Alignment.ofTensor_eq_ok_iff (rfl : _ = [tokens, s.chosen]) ..).mpr
    ⟨hblock ▸ hr.block_pos, hr.experts_pos, hblock ▸ hr.alignment_eq⟩

namespace Built

variable (h : Built s l)

include h

/-- The sizes of a pass are those of the settings. -/
theorem gatedSizes_eq (hidden logits : Tensor) (tokens : Nat) :
    Forward.gatedSizes (rowBatch s hidden logits tokens) l.gateUp.stored l.down.stored =
      .ok (sizesFor s tokens, s.intermediate) :=
  (Forward.gatedSizes_eq_ok_iff ..).mpr ⟨rfl, h.gateUp_stack.packedSize_eq _,
    h.down_stack.packedSize_eq _, h.gateUp_stack.scaleColumns_eq _, rfl⟩

/-- The workspace of a layer has room for the first product, with any block size. -/
theorem required_gateUp_le {block : Nat} (hblock : block ∈ Block.sizes) :
    Workspace.required s.gateUpColumns s.hidden block ≤ l.workspace.size := by
  rw [h.size_workspace]
  exact Workspace.required_le_size_forShapes List.mem_cons_self hblock

/-- The workspace of a layer has room for the second product, with any block size. -/
theorem required_down_le {block : Nat} (hblock : block ∈ Block.sizes) :
    Workspace.required s.hidden s.intermediate block ≤ l.workspace.size := by
  rw [h.size_workspace]
  exact Workspace.required_le_size_forShapes (List.mem_cons_of_mem _ List.mem_cons_self) hblock

/-- A routed pass in a supported block runs if its elements are those of activations. -/
theorem exists_gated_eq_ok
    (hr : Forward.Routed (rowBatch s hidden logits tokens) tokens s.experts r)
    (hpadded : r.alignment.padded < twoTo 32) (hblock : r.block.size ∈ Block.sizes)
    (hactivation : hidden.element.isActivation = true) :
    ∃ out, (Forward.gated (rowBatch s hidden logits tokens) l.gateUp.stored l.down.stored
      l.workspace).1 = .ok out := by
  let sizes := sizesFor s tokens
  let batch := rowBatch s hidden logits tokens
  obtain ⟨o₁, g₁, scales₁, h₁⟩ := Experts.IsStack.exists_accepted h.gateUp_stack rfl rfl
    (Forward.follows_tokenCall sizes batch l.gateUp.stored r false) hr hpadded hblock
    ⟨hactivation, rfl⟩ (h.required_gateUp_le hblock)
  obtain ⟨o₂, g₂, scales₂, h₂⟩ := Experts.IsStack.exists_accepted h.down_stack rfl rfl
    (Forward.follows_slotCall sizes batch s.intermediate
      (Forward.activatedSlots sizes batch s.intermediate h₁.contents.weight) l.down.stored r) hr
    hpadded hblock ⟨hactivation, rfl⟩ (h.required_down_le hblock)
  exact ⟨_, Forward.gated_eq_ok (h.gatedSizes_eq hidden logits tokens) hr h₁ h₂⟩

/-- The first call of a routed pass is refused for a block that is not supported. -/
theorem prepare_of_block_not_mem
    (hr : Forward.Routed (rowBatch s hidden logits tokens) tokens s.experts r)
    (hblock : r.block.size ∉ Block.sizes) :
    (Forward.tokenCall (sizesFor s tokens) (rowBatch s hidden logits tokens) l.gateUp.stored r
      false).prepare l.workspace = .error (.blockSize r.block.size) := by
  obtain ⟨type, groupSize, hpackable⟩ := h.gateUp_stack.exists_packable
  exact GroupedCall.prepare_of_block_not_mem hr.tokens_pos hpackable.columns_pos
    hpackable.rows_pos hr.experts_pos hr.count_pos hblock l.workspace

/-- The first call of a routed pass is refused for elements that are not those of activations. -/
theorem prepare_of_not_activation
    (hr : Forward.Routed (rowBatch s hidden logits tokens) tokens s.experts r)
    (hblock : r.block.size ∈ Block.sizes) (hactivation : hidden.element.isActivation = false) :
    (Forward.tokenCall (sizesFor s tokens) (rowBatch s hidden logits tokens) l.gateUp.stored r
      false).prepare l.workspace = .error (.activationElement hidden.element) := by
  obtain ⟨type, groupSize, hpackable⟩ := h.gateUp_stack.exists_packable
  exact GroupedCall.prepare_of_not_activation ⟨hr.tokens_pos, hpackable.columns_pos,
    hpackable.rows_pos, hr.experts_pos, hr.count_pos, hblock, hpackable.columns_mod,
    hpackable.rows_mod⟩ hactivation l.workspace

/-- A pass over rows fails only for what does not fit. -/
theorem refusal_of_gated_eq_error (htokens : 0 < tokens) (hcounted : Counted s tokens logits)
    (herror : (Forward.gated (rowBatch s hidden logits tokens) l.gateUp.stored l.down.stored
      l.workspace).1 = .error e) : Refusal s tokens s.hidden hidden logits e := by
  have hsizes := h.gatedSizes_eq hidden logits tokens
  cases hroute : Forward.route (rowBatch s hidden logits tokens) tokens s.experts with
  | error e' =>
    rw [Forward.gated_of_route_eq_error hsizes htokens hroute] at herror
    cases herror
    exact refusal_of_route_eq_error htokens hroute
  | ok r =>
    have hr := (Forward.route_eq_ok_iff ..).mp hroute
    by_cases hblock : r.block.size ∈ Block.sizes
    · cases hactivation : hidden.element.isActivation with
      | false =>
        have hprepare := h.prepare_of_not_activation hr hblock hactivation
        rw [Forward.gated_of_prepare_eq_error hsizes hr hprepare] at herror
        cases herror
        exact .element hactivation
      | true =>
        obtain ⟨out, hout⟩ := h.exists_gated_eq_ok hr (hcounted.padded_lt hr) hblock hactivation
        rw [hout] at herror
        cases herror
    · have hprepare := h.prepare_of_block_not_mem hr hblock
      rw [Forward.gated_of_prepare_eq_error hsizes hr hprepare] at herror
      cases herror
      have hfixed : r.block = s.blockFor tokens := hr.block_eq
      rw [hfixed] at hblock ⊢
      exact .block _ (block_eq_of_not_mem hblock) hblock

/-- A pass over rows that has a result fits the settings, and the result has their type. -/
theorem suits_of_gated_eq_ok (htokens : 0 < tokens) {out : Tensor}
    (hout : (Forward.gated (rowBatch s hidden logits tokens) l.gateUp.stored l.down.stored
      l.workspace).1 = .ok out) :
    Suits s tokens s.hidden hidden logits ∧ out.element = hidden.element := by
  obtain ⟨sizes, half, r, hsizes, _, _, hr, o₁, g₁, scales₁, h₁, o₂, g₂, scales₂, h₂⟩ :=
    Forward.exists_accepted_of_gated hout rfl htokens
  have hread := hsizes
  rw [h.gatedSizes_eq hidden logits tokens, Except.ok.injEq, Prod.mk.injEq] at hread
  obtain ⟨rfl, rfl⟩ := hread
  rw [Forward.gated_eq_ok hsizes hr h₁ h₂, Except.ok.injEq] at hout
  subst hout
  refine ⟨⟨rfl, (Element.isActivation_iff _).mp h₁.holdsActivations.activation, hr.gating_shape,
    hr.count_pos, hr.count_le, ?_⟩, rfl⟩
  cases hb : s.block with
  | none => exact .inl rfl
  | some b =>
    have hblock : r.block = b := by
      rw [hr.block_eq]
      simp only [rowBatch, hb, Option.getD_some]
    exact .inr ⟨b, rfl, hblock ▸ h₁.sound.block_mem⟩

/-- A pass over hidden states of any rank is one over their rows. -/
theorem forward_eq (hshape : hidden.shape = leading ++ [s.hidden]) (logits : Tensor) :
    (l.forward hidden logits).1 = (Forward.gated (rowBatch s hidden logits (volume leading))
      l.gateUp.stored l.down.stored l.workspace).1.map (·.reshape hidden.shape) := by
  simp only [forward, batch_eq h.settings_eq hshape, ne_eq, not_true_eq_false, ite_false]
  rfl

/-- A pass with other features is refused with both numbers in the error. -/
theorem forward_of_features_ne (hshape : hidden.shape = leading ++ [features])
    (hfeatures : features ≠ s.hidden) (logits : Tensor) :
    (l.forward hidden logits).1 = .error (.hiddenFeatures features s.hidden) := by
  simp only [forward, batch_eq h.settings_eq hshape, if_pos hfeatures]

/-- A pass with tokens fails only for what does not fit. -/
theorem refusal_of_forward_eq_error (hshape : hidden.shape = leading ++ [features])
    (htokens : 0 < volume leading) (hcounted : Counted s (volume leading) logits)
    (herror : (l.forward hidden logits).1 = .error e) :
    Refusal s (volume leading) features hidden logits e := by
  by_cases hfeatures : features = s.hidden
  · subst hfeatures
    rw [h.forward_eq hshape logits] at herror
    apply h.refusal_of_gated_eq_error htokens hcounted
    cases hgated : (Forward.gated (rowBatch s hidden logits (volume leading)) l.gateUp.stored
        l.down.stored l.workspace).1 with
    | error e' =>
      rw [hgated] at herror
      cases herror
      rfl
    | ok out =>
      rw [hgated] at herror
      cases herror
  · rw [h.forward_of_features_ne hshape hfeatures logits] at herror
    cases herror
    exact .features hfeatures

/-- A pass with tokens that has a result fits the settings, and the result is like its input. -/
theorem suits_of_forward_eq_ok (hshape : hidden.shape = leading ++ [features])
    (htokens : 0 < volume leading) {out : Tensor} (hout : (l.forward hidden logits).1 = .ok out) :
    Suits s (volume leading) features hidden logits ∧ out.shape = hidden.shape ∧
      out.element = hidden.element := by
  by_cases hfeatures : features = s.hidden
  · subst hfeatures
    rw [h.forward_eq hshape logits] at hout
    cases hgated : (Forward.gated (rowBatch s hidden logits (volume leading)) l.gateUp.stored
        l.down.stored l.workspace).1 with
    | error e =>
      rw [hgated] at hout
      cases hout
    | ok rows =>
      rw [hgated] at hout
      cases hout
      obtain ⟨hsuits, helement⟩ := h.suits_of_gated_eq_ok htokens hgated
      exact ⟨hsuits, rfl, helement⟩
  · rw [h.forward_of_features_ne hshape hfeatures logits] at hout
    cases hout

end Built

/-- A layer of dense weights runs every pass with tokens that fits its settings, after any history
of passes; the result has the shape and type of the hidden states. Every other pass is refused for
what does not fit. -/
theorem forward_ok_iff_suits {gateUp down : Tensor} (hl : ofDense s gateUp down = .ok l)
    (history : List (Tensor × Tensor)) (hshape : hidden.shape = leading ++ [features])
    (htokens : 1 ≤ volume leading) (hcounted : Counted s (volume leading) logits) :
    ((∃ out, ((l.after history).forward hidden logits).1 = .ok out) ↔
      Suits s (volume leading) features hidden logits) ∧
    (∀ out, ((l.after history).forward hidden logits).1 = .ok out →
      out.shape = hidden.shape ∧ out.element = hidden.element) ∧
    ∀ e, ((l.after history).forward hidden logits).1 = .error e →
      Refusal s (volume leading) features hidden logits e := by
  have hbuilt := (built_ofDense hl).after history
  have hrefusal := fun e => hbuilt.refusal_of_forward_eq_error (e := e) hshape htokens hcounted
  refine ⟨⟨?_, ?_⟩, ?_, hrefusal⟩
  · rintro ⟨out, hout⟩
    exact (hbuilt.suits_of_forward_eq_ok hshape htokens hout).1
  · intro hsuits
    cases hout : ((l.after history).forward hidden logits).1 with
    | error e => exact absurd hsuits (hrefusal e hout).not_suits
    | ok out => exact ⟨out, rfl⟩
  · intro out hout
    exact (hbuilt.suits_of_forward_eq_ok hshape htokens hout).2

/-- A layer of three experts, of which each token takes two, in blocks of 48. -/
def sampleSettings : LayerSettings where
  experts := 3
  chosen := 2
  hidden := 64
  intermediate := 64
  renormalize := true
  quant := .int4 32
  block := some ⟨48⟩

/-- Dense gate and up weights of the sample. -/
def sampleGateUp : Tensor := .ofFn .f32 [3, 64, 128] fun i => Single.ofInt (i % 7 : Nat)

/-- Two tokens of the sample, in hidden states of rank three. -/
def sampleHidden : Tensor :=
  .ofFn .bf16 [1, 2, 64] fun i => Element.bf16.ofSingle (Single.ofInt i)

def sampleLogits : Tensor := .ofFn .f32 [2, 3] fun i => Single.ofInt i

/-- A pass that is refused, since its logits are no matrix, and one that runs. -/
def sampleHistory : List (Tensor × Tensor) :=
  [(sampleHidden, sampleHidden), (sampleHidden, sampleLogits)]

/-- After a pass that was refused and one that ran, the sample layer takes a batch that suits it. -/
theorem forward_ok_iff_suits_sampleHistory :
    ∃ l, ofDense sampleSettings sampleGateUp GroupedCall.sampleWeights = .ok l ∧
      Suits sampleSettings 2 64 sampleHidden sampleLogits ∧
      ∃ out, ((l.after sampleHistory).forward sampleHidden sampleLogits).1 = .ok out ∧
        out.shape = [1, 2, 64] ∧ out.element = .bf16 := by
  have hgateUp : sampleGateUp.shape = [3, 64, 128] := rfl
  have hdown : GroupedCall.sampleWeights.shape = [3, 64, 64] := rfl
  obtain ⟨x₁, hx₁⟩ := Experts.exists_quantize
    (⟨rfl, by decide, rfl, rfl, fun _ => rfl, by decide, by decide⟩ :
      Support.Packable .uint4b8 64 128 32) hgateUp
  obtain ⟨x₂, hx₂⟩ := Experts.exists_quantize
    (⟨rfl, by decide, rfl, rfl, fun _ => rfl, by decide, by decide⟩ :
      Support.Packable .uint4b8 64 64 32) hdown
  have hl := (ofDense_eq_ok_iff sampleSettings sampleGateUp GroupedCall.sampleWeights _).mpr
    ⟨.uint4b8, x₁, x₂, rfl, hx₁, hx₂, hgateUp, hdown, rfl⟩
  have hsuits : Suits sampleSettings 2 64 sampleHidden sampleLogits :=
    ⟨rfl, .inr (.inl rfl), rfl, by decide, by decide, .inr ⟨_, rfl, by decide⟩⟩
  have hcounted : Counted sampleSettings 2 sampleLogits :=
    counted_of_slots_lt hsuits.logits_shape (by decide)
  have hhidden : sampleHidden.shape = [1, 2] ++ [64] := rfl
  obtain ⟨hiff, hlike, _⟩ := forward_ok_iff_suits hl sampleHistory hhidden (by decide) hcounted
  obtain ⟨out, hout⟩ := hiff.mpr hsuits
  exact ⟨_, hl, hsuits, out, hout, hlike out hout⟩

end Layer

end RoutedExperts
