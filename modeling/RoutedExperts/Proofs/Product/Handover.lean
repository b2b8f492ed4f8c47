import RoutedExperts.Proofs.Product.Acceptance
import RoutedExperts.Proofs.Product.StoredWeights
import RoutedExperts.Proofs.Routing.Served

/-!
# What is produced is accepted

Slots are grouped and experts are packed without a product in sight, while a product checks the
tensors of both from scratch. The checks never refuse what was made for them: a product accepts
every grouping of its slots together with every packed stack of its sizes (`Takes.exists_accepted`),
also when ids name no expert, and reads the grouping back as it was (`Alignment.load_ofIds`).
-/

namespace RoutedExperts

namespace GroupedCall

/-- A call that takes its routing from a grouping and its weights from packed experts, with
activations and slot weights as its sizes ask for and a workspace with room. -/
structure Takes (c : GroupedCall) (a : Alignment) (x : Experts) (w : Workspace) : Prop where
  padded_eq : c.shape.padded = a.padded
  sortedIds_eq : c.sortedIds = a.idTensor
  offsets_eq : c.offsets = a.offsetTensor
  packed_eq : c.packed = x.packed
  scales_eq : c.scales = x.scales
  activations_element : c.activations.element = .f16 ∨ c.activations.element = .bf16 ∨
    c.activations.element = .f32
  activations_shape : c.activations.shape =
    [if c.shape.replicated then c.shape.tokens else c.shape.tokens * c.shape.chosen, c.shape.rows]
  weights_shape : c.shape.weighted = true →
    ∃ t : Tensor, c.weights = some t ∧ t.shape = [c.shape.tokens, c.shape.chosen]
  fits : w.fits c.shape.columns c.shape.rows c.shape.block = true

variable {c : GroupedCall} {w : Workspace} {x : Experts} {ids : Array Int}

/-- A product accepts a grouping of its slots together with packed experts of its sizes. -/
theorem Takes.exists_accepted (h : c.Takes (.ofIds c.shape.block c.shape.experts ids) x w)
    {type : WeightType} {groupSize : Int} {e : Nat} {q : Quantized}
    (hx : x.Holds type groupSize c.shape.experts c.shape.rows c.shape.columns e q)
    (htokens : 0 < c.shape.tokens) (hchosen : 0 < c.shape.chosen) (hexperts : 0 < c.shape.experts)
    (hblock : c.shape.block ∈ Block.sizes) (hsize : ids.size = c.shape.slots)
    (hslots : ids.size < twoTo 32)
    (hpadded : (Alignment.ofIds c.shape.block c.shape.experts ids).padded < twoTo 32) :
    ∃ o size scales, c.Accepted w o size scales := by
  have hactivations : c.HoldsActivations :=
    ⟨(Element.isActivation_iff _).mpr h.activations_element, h.activations_shape⟩
  have hrouting : Plan.Valid c.sortedIds c.offsets c.shape.padded c.shape.experts c.shape.block
      c.shape.slots := by
    rw [h.sortedIds_eq, h.offsets_eq, h.padded_eq, ← hsize]
    exact Alignment.valid_ofIds hslots hpadded (Block.pos_of_mem_sizes hblock)
  obtain ⟨weights, hweights⟩ := exists_holdsWeights_of_shape h.weights_shape
  exact exists_accepted_of_holds hx h.packed_eq h.scales_eq htokens hexperts hchosen hblock
    hactivations hrouting hweights (of_decide_eq_true h.fits)

/-- Every matrix of ids is grouped for every supported block, the grouping is read back as it was,
and every product that takes it with packed experts returns its rows and their sums. -/
theorem exists_ofTensor_taken {ids : Tensor} {tokens chosen block experts : Nat}
    (hshape : ids.shape = [tokens, chosen]) (htokens : 1 ≤ tokens) (hchosen : 1 ≤ chosen)
    (hblock : block ∈ Block.sizes) (hexperts : 1 ≤ experts) :
    ∃ a, Alignment.ofTensor ids block experts = .ok a ∧
      (tokens * chosen < twoTo 32 → a.padded < twoTo 32 →
        Plan.load a.idTensor a.offsetTensor a.padded experts block (tokens * chosen) =
          .ok ⟨a.sortedIds, a.offsets⟩ ∧
        ∀ (weights : Tensor) (type : WeightType) (groupSize : Int) (x : Experts),
          Experts.quantize weights type groupSize = .ok x →
          ∀ (c : GroupedCall) (w : Workspace), c.shape.tokens = tokens → c.shape.chosen = chosen →
            c.shape.block = block → c.shape.experts = experts →
            weights.shape = [experts, c.shape.rows, c.shape.columns] → c.Takes a x w →
              (∃ sums, (c.products w).1 = .ok sums) ∧ ∃ rows, (c.slotProducts w).1 = .ok rows) := by
  have hpos : 0 < block := Block.pos_of_mem_sizes hblock
  have hsize : ids.ints.size = tokens * chosen := by rw [Tensor.size_ints, hshape, volume_pair]
  refine ⟨_, (Alignment.ofTensor_eq_ok_iff hshape ..).mpr ⟨hpos, hexperts, rfl⟩, ?_⟩
  intro hslots hpadded
  rw [← hsize] at hslots ⊢
  refine ⟨Alignment.load_ofIds hslots hpadded hpos, ?_⟩
  rintro weights type groupSize x hx c w rfl rfl rfl rfl hweights htakes
  have hholds := Experts.holds_quantized hx hweights hexperts
  obtain ⟨o, size, scales, ha⟩ :=
    htakes.exists_accepted hholds htokens hchosen hexperts hblock hsize hslots hpadded
  exact ⟨⟨_, ha.products_eq⟩, ⟨_, ha.slotProducts_eq⟩⟩

/-- The sample ids grouped for three experts, two of the six slots in no group. -/
def sampleGrouping : Alignment := .ofIds 16 3 Alignment.sampleIds.ints

/-- A call on three tokens that takes the sample grouping and a packed stack. -/
def groupedCall (x : Experts) : GroupedCall where
  shape := {
    tokens := 3, columns := 64, rows := 64, padded := sampleGrouping.padded, experts := 3
    chosen := 2, block := 16, replicated := false, weighted := true }
  activations := .ofFn .bf16 [6, 64] fun i => Element.bf16.ofSingle (Single.ofInt i)
  packed := x.packed
  sortedIds := sampleGrouping.idTensor
  weights := some (.ofFn .f32 [3, 2] fun i => Single.ofInt i)
  scales := x.scales
  offsets := sampleGrouping.offsetTensor

/-- The grouping of three tokens on three experts, one of them without tokens, is taken by both
products. -/
theorem exists_ofTensor_taken_groupedCall :
    Alignment.ofTensor Alignment.sampleIds 16 3 = .ok sampleGrouping ∧
      Plan.load sampleGrouping.idTensor sampleGrouping.offsetTensor 32 3 16 6 =
        .ok ⟨sampleGrouping.sortedIds, #[0, 16, 16, 32]⟩ ∧
      ∃ x, Experts.quantize sampleWeights .uint4b8 32 = .ok x ∧
        (∃ sums, ((groupedCall x).products (.forShape 64 64 16)).1 = .ok sums) ∧
        ∃ rows, ((groupedCall x).slotProducts (.forShape 64 64 16)).1 = .ok rows := by
  have hpackable : Support.Packable .uint4b8 64 64 32 :=
    ⟨rfl, by decide, rfl, rfl, fun _ => rfl, by decide, by decide⟩
  obtain ⟨x, hx⟩ := Experts.exists_quantize hpackable (rfl : sampleWeights.shape = [3, 64, 64])
  have htakes : (groupedCall x).Takes sampleGrouping x (.forShape 64 64 16) :=
    ⟨rfl, rfl, rfl, rfl, rfl, .inr (.inl rfl), rfl, fun _ => ⟨_, rfl, rfl⟩,
      decide_eq_true (Nat.le_of_eq Array.size_replicate.symm)⟩
  obtain ⟨a, ha, htaken⟩ := exists_ofTensor_taken (rfl : Alignment.sampleIds.shape = [3, 2])
    (by decide) (by decide) (by decide : 16 ∈ Block.sizes) (by decide : 1 ≤ 3)
  have hgrouping : sampleGrouping = a := Except.ok.inj ha
  subst hgrouping
  have hpadded : sampleGrouping.padded = 32 := by decide +kernel
  have hoffsets : sampleGrouping.offsets = #[0, 16, 16, 32] := by decide +kernel
  obtain ⟨hload, hproducts⟩ := htaken (by decide) (by rw [hpadded]; decide)
  rw [hpadded, hoffsets] at hload
  exact ⟨ha, hload, x, hx,
    hproducts sampleWeights _ _ x hx (groupedCall x) _ rfl rfl rfl rfl rfl htakes⟩

end GroupedCall

end RoutedExperts
