import RoutedExperts.Layer.Forward
import RoutedExperts.Proofs.Routing.Served
import RoutedExperts.Proofs.Routing.TopK

/-!
# The routing of a batch

`Forward.Routed` is the outcome of routing a batch: the grouping of the experts that each row of
logits names, and the weights that it gives them. If the places of the grouping fit 32-bit words,
its tensors are a valid plan, in which each slot is served by the expert that its own row names
(`Routed.serves`).
-/

namespace RoutedExperts

namespace Alignment

/-- What is read from a vector of words has 32 bits. -/
theorem getD_ints_wordVector_lt (values : Array Nat) (i : Nat) :
    (wordVector values).ints.getD i 0 < twoTo 32 := by
  have hpos : 0 < twoTo 32 := by decide
  rw [ints_wordVector, Array.getD_eq_getD_getElem?, Array.getElem?_map]
  cases values[i]? with
  | none => exact Int.ofNat_lt.mpr hpos
  | some v => exact Int.ofNat_lt.mpr (Nat.mod_lt v hpos)

end Alignment

namespace Forward

variable {batch : Batch} {tokens experts : Nat} {r : Routing}

/-- What a batch is routed to. -/
structure Routed (batch : Batch) (tokens experts : Nat) (r : Routing) : Prop where
  gating_shape : batch.gating.shape = [tokens, experts]
  tokens_pos : 0 < tokens
  count_pos : 0 < batch.selection.count
  count_le : batch.selection.count ≤ experts
  block_eq : r.block = batch.block.getD (Block.forBatch tokens batch.selection.count experts)
  block_pos : 0 < r.block.size
  weights_eq : r.weights = (TopK.choice batch.gating batch.selection tokens experts).weights
  alignment_eq : r.alignment = Alignment.ofIds r.block.size experts
    (TopK.choice batch.gating batch.selection tokens experts).experts.ints

/-- Where tokens are routed there are experts. -/
theorem Routed.experts_pos (h : Routed batch tokens experts r) : 0 < experts :=
  Nat.lt_of_lt_of_le h.count_pos h.count_le

/-- A routing is found exactly if the batch is routed so. -/
theorem route_eq_ok_iff (batch : Batch) (tokens experts : Nat) (r : Routing) :
    route batch tokens experts = .ok r ↔ Routed batch tokens experts r := by
  simp only [route, error_bind, pure_eq_ok, throw_eq_error, bind_eq_ok_iff, refuse_eq_ok_iff,
    ne_eq, not_not, Except.ok.injEq]
  have hids : (TopK.choice batch.gating batch.selection tokens experts).experts.shape =
      [tokens, batch.selection.count] := rfl
  constructor
  · rintro ⟨hshape, choice, hchoice, alignment, halignment, rfl⟩
    obtain ⟨hcount, hle, htokens, rfl⟩ := (TopK.select_eq_ok_iff hshape ..).mp hchoice
    obtain ⟨hblock, _, rfl⟩ := (Alignment.ofTensor_eq_ok_iff hids ..).mp halignment
    exact ⟨hshape, htokens, hcount, hle, rfl, hblock, rfl, rfl⟩
  · intro h
    refine ⟨h.gating_shape, _, (TopK.select_eq_ok_iff h.gating_shape ..).mpr
      ⟨h.count_pos, h.count_le, h.tokens_pos, rfl⟩, r.alignment, ?_, ?_⟩
    · rw [← h.block_eq]
      exact (Alignment.ofTensor_eq_ok_iff hids ..).mpr ⟨h.block_pos, h.experts_pos, h.alignment_eq⟩
    · rw [← h.block_eq, ← h.weights_eq]

namespace Routed

/-- A batch can be routed if there are tokens and as many experts as each of them takes. -/
theorem exists_of_shape (batch : Batch) (hshape : batch.gating.shape = [tokens, experts])
    (htokens : 0 < tokens) (hcount : 0 < batch.selection.count)
    (hle : batch.selection.count ≤ experts)
    (hblock : 0 < (batch.block.getD (Block.forBatch tokens batch.selection.count experts)).size) :
    ∃ r, Routed batch tokens experts r := by
  let choice := TopK.choice batch.gating batch.selection tokens experts
  let block := batch.block.getD (Block.forBatch tokens batch.selection.count experts)
  let r : Routing :=
    ⟨choice.weights, Alignment.ofIds block.size experts choice.experts.ints, block⟩
  exact ⟨r, hshape, htokens, hcount, hle, rfl, hblock, rfl, rfl⟩

/-- The row of logits of a token. -/
def logits (batch : Batch) (experts m : Nat) : Array Float32 :=
  TopK.tokenRow batch.gating.singles experts m

variable (h : Routed batch tokens experts r)

include h

/-- A token has a logit for each expert. -/
theorem size_logits {m : Nat} (hm : m < tokens) : (logits batch experts m).size = experts :=
  TopK.size_tokenRow h.gating_shape hm

/-- A chosen expert is one of the batch. -/
theorem expert_lt {m j : Nat} (hm : m < tokens) (hj : j < batch.selection.count) :
    TopK.rowExpert batch.selection (logits batch experts m) j < experts := by
  have hsize := h.size_logits hm
  have hlt := TopK.rowExpert_lt (h.count_le.trans_eq hsize.symm) hj
  rwa [hsize] at hlt

/-- The id in a slot is the expert that the token chose there. -/
theorem getElem?_ids {m j : Nat} (hm : m < tokens) (hj : j < batch.selection.count) :
    (TopK.choice batch.gating batch.selection tokens experts).experts.ints[
        m * batch.selection.count + j]? =
      some (TopK.rowExpert batch.selection (logits batch experts m) j : Int) :=
  TopK.getElem?_experts_choice h.gating_shape h.count_le hm hj

/-- There is a weight for each choice of each token. -/
theorem weights_shape : r.weights.shape = [tokens, batch.selection.count] := by
  rw [h.weights_eq]
  rfl

/-- The weight in a slot is that of the expert the token chose there. -/
theorem getD_weights {m j : Nat} (hm : m < tokens) (hj : j < batch.selection.count) :
    r.weights.singles.getD (m * batch.selection.count + j) 0 =
      TopK.rowWeight batch.selection (logits batch experts m) j := by
  rw [h.weights_eq]
  exact TopK.getD_weights_choice h.gating_shape h.count_le hm hj

/-- The ids of a batch name experts that exist. -/
theorem bounds_of_mem_ids {id : Int}
    (hid : id ∈ (TopK.choice batch.gating batch.selection tokens experts).experts.ints) :
    0 ≤ id ∧ id < experts := by
  obtain ⟨i, hi, rfl⟩ := Array.mem_iff_getElem.mp hid
  obtain ⟨hm, hj⟩ := row_lt_column_lt (TopK.size_experts_choice .. ▸ hi)
  have hentry := h.getElem?_ids hm hj
  rw [div_mul_add_mod, Array.getElem?_eq_getElem hi, Option.some.injEq] at hentry
  rw [hentry]
  exact ⟨Int.natCast_nonneg _, Int.ofNat_lt.mpr (h.expert_lt hm hj)⟩

/-- Every slot has a place in the grouping. -/
theorem slots_le_padded : tokens * batch.selection.count ≤ r.alignment.padded := by
  rw [← TopK.size_experts_choice batch.gating, h.alignment_eq]
  exact Alignment.size_le_padded_ofIds _ fun _ hid => h.bounds_of_mem_ids hid

/-- Every slot stands in the grouping once. -/
theorem count_sortedIds {slot : Nat} (hslot : slot < tokens * batch.selection.count) :
    r.alignment.sortedIds.count slot = 1 := by
  rw [← TopK.size_experts_choice batch.gating batch.selection tokens experts] at hslot
  rw [h.alignment_eq, Alignment.count_sortedIds _ _ (Array.getElem?_eq_getElem hslot),
    if_pos (h.bounds_of_mem_ids (Array.getElem_mem hslot))]

/-- A batch takes at most one block for each slot. -/
theorem padded_le :
    r.alignment.padded ≤ tokens * batch.selection.count * r.block.size := by
  have hle := Alignment.padded_ofIds_le h.block_pos experts
    (TopK.choice batch.gating batch.selection tokens experts).experts.ints
  rwa [TopK.size_experts_choice, ← h.alignment_eq] at hle

variable (hpadded : r.alignment.padded < twoTo 32)

include hpadded

/-- The grouping of a batch is accepted as the routing of a product. -/
theorem valid : Plan.Valid r.alignment.idTensor r.alignment.offsetTensor r.alignment.padded
    experts r.block.size (tokens * batch.selection.count) := by
  have hslots := Nat.lt_of_le_of_lt h.slots_le_padded hpadded
  rw [← TopK.size_experts_choice batch.gating batch.selection tokens experts] at hslots ⊢
  rw [h.alignment_eq] at hpadded ⊢
  exact Alignment.valid_ofIds hslots hpadded h.block_pos

/-- A slot is served by the expert that its row of logits names. -/
theorem serves {m j : Nat} (hm : m < tokens) (hj : j < batch.selection.count) :
    Plan.Serves r.alignment.idTensor.ints r.alignment.offsetTensor.ints
      (TopK.rowExpert batch.selection (logits batch experts m) j)
      (m * batch.selection.count + j) := by
  have hslots := Nat.lt_of_le_of_lt h.slots_le_padded hpadded
  have hslot := rowMajor_lt hm hj
  rw [← TopK.size_experts_choice batch.gating batch.selection tokens experts] at hslots hslot
  rw [h.alignment_eq] at hpadded ⊢
  exact (Alignment.serves_ofIds_iff hslots hpadded (h.expert_lt hm hj) hslot).mpr
    (h.getElem?_ids hm hj)

end Routed

end Forward

end RoutedExperts
