import RoutedExperts.Proofs.Product.Handover
import RoutedExperts.Proofs.Reference.Contributions
import RoutedExperts.Proofs.Reference.RoutedRows

/-!
# A reference and a product add the same contributions

A dense reference goes from expert to expert and adds to the rows of tokens. A grouped product goes
from token to token and adds the values of its slots. Each adds, to every token, one weighted
product for every slot of the token whose id names an expert, so that the two lists of pairs of an
expert and a weight are the same up to their order (`Reference.perm_contributions`). Ids that name
no expert count for nothing in either, and an expert that a token names twice counts twice in both.
-/

namespace RoutedExperts

namespace GroupedCall

/-- The expert that serves a slot. -/
def expertOf? (c : GroupedCall) (slot : Nat) : Option Nat :=
  (List.range c.shape.experts).find? fun e =>
    Plan.Serves c.sortedIds.ints c.offsets.ints e slot

/-- The expert and the weight that a slot contributes to its token. -/
def contribution? (c : GroupedCall) (slot : Nat) : Option (Nat × Float32) :=
  (c.expertOf? slot).map fun e => (e, c.slotFactor slot)

/-- The contributions of a token's slots. -/
def contributions (c : GroupedCall) (token : Nat) : List (Nat × Float32) :=
  (List.range c.shape.chosen).filterMap fun j => c.contribution? (token * c.shape.chosen + j)

variable {c : GroupedCall}

/-- A slot adds its contribution, or zero if it has none. -/
def Contents.addend (t : c.Contents) (slot n : Nat) : Float32 :=
  (c.contribution? slot).elim 0 fun p => t.rowProduct slot p.1 n * p.2

/-- The value of a slot is its addend in the sum of the token. -/
theorem Contents.slotValue_eq_addend (t : c.Contents) (slot n : Nat) :
    t.slotValue slot n = t.addend slot n := by
  rw [slotValue, addend, contribution?, expertOf?]
  cases (List.range c.shape.experts).find? fun e =>
    Plan.Serves c.sortedIds.ints c.offsets.ints e slot <;> rfl

/-- A call that takes its routing from a grouping of slots, and their weights from a tensor if there
is one. -/
structure RoutedBy (c : GroupedCall) (a : Alignment) (tokens chosen experts : Nat)
    (weights : Option Tensor) : Prop where
  tokens_eq : c.shape.tokens = tokens
  chosen_eq : c.shape.chosen = chosen
  experts_eq : c.shape.experts = experts
  sortedIds_eq : c.sortedIds = a.idTensor
  offsets_eq : c.offsets = a.offsetTensor
  weighted_eq : c.shape.weighted = weights.isSome
  weights_eq : ∀ t, weights = some t → c.weights = some t

namespace RoutedBy

variable {a : Alignment} {tokens chosen experts block : Nat} {weights : Option Tensor}
  {ids : Array Int}

/-- The factor of a slot is the weight that the reference gives it. -/
theorem slotFactor_eq (h : c.RoutedBy a tokens chosen experts weights) (slot : Nat) :
    c.slotFactor slot = Reference.slotWeight weights slot := by
  cases hweights : weights with
  | none =>
    have hweighted : c.shape.weighted = false := by rw [h.weighted_eq, hweights]; rfl
    rw [slotFactor, hweighted]
    rfl
  | some t =>
    have hweighted : c.shape.weighted = true := by rw [h.weighted_eq, hweights]; rfl
    rw [slotFactor, hweighted, h.weights_eq t hweights]
    rfl

/-- The expert that serves a slot is the one that its id names, if there is such an expert. -/
theorem expertOf?_eq_some_iff
    (h : c.RoutedBy (.ofIds block experts ids) tokens chosen experts weights)
    (hslots : ids.size < twoTo 32)
    (hpadded : (Alignment.ofIds block experts ids).padded < twoTo 32) {slot : Nat}
    (hslot : slot < ids.size) (e : Nat) :
    c.expertOf? slot = some e ↔ e < experts ∧ ids[slot]? = some (e : Int) := by
  have hserves : ∀ e < experts, Plan.Serves c.sortedIds.ints c.offsets.ints e slot ↔
      ids[slot]? = some (e : Int) := by
    intro e he
    rw [h.sortedIds_eq, h.offsets_eq]
    exact Alignment.serves_ofIds_iff hslots hpadded he hslot
  have hfound : ∀ e, c.expertOf? slot = some e → e < experts ∧ ids[slot]? = some (e : Int) := by
    intro e he
    rw [expertOf?, h.experts_eq] at he
    have hlt := List.mem_range.mp (List.mem_of_find?_eq_some he)
    have hserved := List.find?_some he
    exact ⟨hlt, (hserves e hlt).mp (of_decide_eq_true hserved)⟩
  refine ⟨hfound e, ?_⟩
  rintro ⟨he, hid⟩
  have hsome : (c.expertOf? slot).isSome := by
    rw [expertOf?, List.find?_isSome, h.experts_eq]
    exact ⟨e, List.mem_range.mpr he, decide_eq_true ((hserves e he).mpr hid)⟩
  obtain ⟨e', he'⟩ := Option.isSome_iff_exists.mp hsome
  have hid' := (hfound e' he').2
  rw [hid, Option.some.injEq, Int.natCast_inj] at hid'
  rw [he', hid']

end RoutedBy

end GroupedCall

namespace Reference

open RoutedExperts.Alignment (slotsOf)

/-- What the slots of an expert contribute to a token. -/
theorem contributions_routedOf (chosen : Nat) (weights : Option Tensor) (e : Nat)
    (slots : List Nat) (token : Nat) :
    (routedOf chosen weights e slots).contributions token =
      ((slots.filter fun slot => slot / chosen = token).map fun slot =>
        (e, slotWeight weights slot)) := by
  rw [Routed.contributions, routedOf, List.zip_map', List.filter_map, List.map_map]
  rfl

/-- The slots of a token whose ids name an expert, expert by expert. -/
def routedSlots (chosen experts : Nat) (ids : Array Int) (token : Nat) : List (Nat × Nat) :=
  ((List.range experts).filter fun e => slotsOf ids e ≠ []).flatMap fun e =>
    ((slotsOf ids e).filter fun slot => slot / chosen = token).map fun slot => (e, slot)

/-- The routed slots of a token are those of its slots whose id is an expert, each with that
expert. -/
theorem mem_routedSlots_iff (chosen experts : Nat) (ids : Array Int) (token : Nat)
    (p : Nat × Nat) : p ∈ routedSlots chosen experts ids token ↔
      p.1 < experts ∧ ids[p.2]? = some (p.1 : Int) ∧ p.2 / chosen = token := by
  obtain ⟨e, slot⟩ := p
  simp only [routedSlots, List.mem_flatMap, List.mem_filter, List.mem_range, List.mem_map,
    Alignment.mem_slotsOf_iff, decide_eq_true_eq, Prod.mk.injEq]
  constructor
  · rintro ⟨e', ⟨he, -⟩, slot', ⟨hid, htoken⟩, rfl, rfl⟩
    exact ⟨he, hid, htoken⟩
  · rintro ⟨he, hid, htoken⟩
    have hmem : slot ∈ slotsOf ids e := (Alignment.mem_slotsOf_iff ids e slot).mpr hid
    exact ⟨e, ⟨he, List.ne_nil_of_mem hmem⟩, slot, ⟨hid, htoken⟩, rfl, rfl⟩

/-- No slot is routed twice. -/
theorem nodup_routedSlots (chosen experts : Nat) (ids : Array Int) (token : Nat) :
    (routedSlots chosen experts ids token).Nodup := by
  rw [routedSlots, List.nodup_flatMap]
  constructor
  · intro e _
    exact ((Alignment.nodup_slotsOf ids e).filter _).map fun _ _ heq => (Prod.mk.inj heq).2
  · apply (List.nodup_range.filter _).imp
    intro e e' hne p hp hp'
    obtain ⟨_, _, rfl⟩ := List.mem_map.mp hp
    obtain ⟨_, _, heq⟩ := List.mem_map.mp hp'
    exact hne (Prod.mk.inj heq).1.symm

variable {c : GroupedCall} {tokens chosen experts block : Nat} {weights : Option Tensor}
  {ids : Array Int}

/-- The contributions that a reference adds to a token are those of the token's slots in a call on
the grouping of the same ids. -/
theorem perm_contributions (hsize : ids.size = tokens * chosen) (hslots : ids.size < twoTo 32)
    (hpadded : (Alignment.ofIds block experts ids).padded < twoTo 32)
    (h : c.RoutedBy (.ofIds block experts ids) tokens chosen experts weights) {token : Nat}
    (htoken : token < tokens) :
    (c.contributions token).Perm (contributions
      (((List.range experts).filter fun e => slotsOf ids e ≠ []).map fun e =>
        routedOf chosen weights e (slotsOf ids e)) token) := by
  -- both lists are weighted lists of pairs of an expert and a slot, none of them twice
  have hcall : c.contributions token = ((List.range chosen).filterMap fun j =>
      (c.expertOf? (token * chosen + j)).map fun e => (e, token * chosen + j)).map
        fun p => (p.1, slotWeight weights p.2) := by
    rw [GroupedCall.contributions, h.chosen_eq, List.map_filterMap]
    apply List.filterMap_congr
    intro j _
    rw [GroupedCall.contribution?, Option.map_map, h.slotFactor_eq]
    rfl
  have hreference : contributions (((List.range experts).filter fun e => slotsOf ids e ≠ []).map
      fun e => routedOf chosen weights e (slotsOf ids e)) token =
        (routedSlots chosen experts ids token).map fun p => (p.1, slotWeight weights p.2) := by
    rw [contributions, List.flatMap_map, routedSlots, List.map_flatMap]
    simp only [contributions_routedOf, List.map_map]
    rfl
  rw [hcall, hreference]
  apply List.Perm.map
  have hexpert : ∀ j < chosen, ∀ e, c.expertOf? (token * chosen + j) = some e ↔
      e < experts ∧ ids[token * chosen + j]? = some (e : Int) := by
    intro j hj
    apply h.expertOf?_eq_some_iff hslots hpadded
    rw [hsize]
    exact rowMajor_lt htoken hj
  rw [List.perm_ext_iff_of_nodup _ (nodup_routedSlots ..)]
  · rintro ⟨e, slot⟩
    rw [mem_routedSlots_iff]
    simp only [List.mem_filterMap, List.mem_range, Option.map_eq_some_iff, Prod.mk.injEq]
    constructor
    · rintro ⟨j, hj, e', he', rfl, rfl⟩
      obtain ⟨hlt, hid⟩ := (hexpert j hj e').mp he'
      exact ⟨hlt, hid, rowMajor_div token hj⟩
    · rintro ⟨hlt, hid, rfl⟩
      have hslot : slot < tokens * chosen := hsize ▸ (Array.getElem?_eq_some_iff.mp hid).1
      have hj := (row_lt_column_lt hslot).2
      have hplace := div_mul_add_mod slot chosen
      refine ⟨slot % chosen, hj, e, (hexpert _ hj e).mpr ⟨hlt, ?_⟩, rfl, hplace⟩
      rw [hplace]
      exact hid
  · apply List.nodup_range.filterMap
    intro j j' p hp hp'
    obtain ⟨_, _, rfl⟩ := Option.map_eq_some_iff.mp hp
    obtain ⟨_, _, heq⟩ := Option.map_eq_some_iff.mp hp'
    have hplace := (Prod.mk.inj heq).2
    omega

/-! ### Rows, groups and sums together -/

/-- How the rows that are routed to experts agree with a grouping of the same ids, and which sums a
reference and a product make of them. -/
structure Agrees (ids : Tensor) (slotWeights : Option Tensor) (tokens chosen experts : Nat)
    (a : Alignment) (routed : List Routed) : Prop where
  /-- Experts have rows if their groups have places, in increasing order, and the rows of an expert
  are those of the slots in its group, in order. -/
  routed_eq : routed = ((List.range experts).filter fun e => a.segment e ≠ #[]).map fun e =>
    routedOf chosen slotWeights e (a.slotsIn e)
  /-- The reference adds the contributions that are routed to a token. -/
  dense_eq : ∀ (activations weights : Tensor) (inner columns : Nat),
    activations.shape = [tokens, inner] → weights.shape = [experts, inner, columns] →
      dense activations weights ids slotWeights = .ok (Tensor.ofFn .f32 [tokens, columns] fun i =>
        weightedSum (rowProduct activations weights inner columns (i / columns) · (i % columns))
          (contributions routed (i / columns)) 0)
  /-- A product adds the contributions of a token's slots, and zeros. -/
  products_eq : ∀ (c : GroupedCall) (w : Workspace) (out : Tensor),
    c.RoutedBy a tokens chosen experts slotWeights → (c.products w).1 = .ok out →
      ∃ t : c.Contents, out = Tensor.ofFn c.activations.element [tokens, c.shape.columns] fun i =>
        c.activations.element.ofSingle ((List.range chosen).foldl (fun sum j =>
          sum + t.addend (i / c.shape.columns * chosen + j) (i % c.shape.columns)) 0)
  /-- Both add the same contributions, each as often as the other. -/
  contributions_perm : tokens * chosen < twoTo 32 → a.padded < twoTo 32 →
    ∀ c : GroupedCall, c.RoutedBy a tokens chosen experts slotWeights → ∀ token < tokens,
      (c.contributions token).Perm (contributions routed token)

/-- Every matrix of words is grouped and routed, and the reference and all products on the grouping
add the same contributions to each token. -/
theorem exists_agrees {ids : Tensor} {slotWeights : Option Tensor}
    {tokens chosen block experts : Nat} (helement : ids.element = .u32)
    (hshape : ids.shape = [tokens, chosen])
    (hweights : ∀ t, slotWeights = some t → t.shape = [tokens, chosen]) (hblock : 1 ≤ block)
    (hexperts : 1 ≤ experts) :
    ∃ a routed, Alignment.ofTensor ids block experts = .ok a ∧
      routedRows ids slotWeights experts = .ok routed ∧
      Agrees ids slotWeights tokens chosen experts a routed := by
  have hrouted := routedRows_eq helement hshape hweights experts
  have hsize : ids.ints.size = tokens * chosen := by rw [Tensor.size_ints, hshape, volume_pair]
  have haligned := Alignment.aligned_ofIds hblock experts ids.ints
  refine ⟨_, _, (Alignment.ofTensor_eq_ok_iff hshape ..).mpr ⟨hblock, hexperts, rfl⟩, hrouted, ?_⟩
  constructor
  · have hgroups : ((List.range experts).filter fun e =>
        (Alignment.ofIds block experts ids.ints).segment e ≠ #[]) =
          (List.range experts).filter fun e => slotsOf ids.ints e ≠ [] := by
      apply List.filter_congr
      intro e he
      simp only [ne_eq, haligned.segment_eq_empty_iff hblock (List.mem_range.mp he)]
    rw [hgroups]
    apply List.map_congr_left
    intro e he
    rw [haligned.slotsIn_eq (List.mem_range.mp (List.mem_filter.mp he).1)]
  · intro activations weights inner columns hactivations hstack
    apply dense_eq hactivations hstack hrouted
    intro r hr
    obtain ⟨e, he, rfl⟩ := List.mem_map.mp hr
    refine ⟨List.mem_range.mp (List.mem_filter.mp he).1, ?_⟩
    intro token htoken
    obtain ⟨slot, hslot, rfl⟩ := List.mem_map.mp htoken
    exact (row_lt_column_lt (lt_of_mem_slotsOf hshape hslot)).1
  · rintro c w out ⟨rfl, rfl, rfl, _, _, _, _⟩ hout
    obtain ⟨o, groupSize, scales, h⟩ := GroupedCall.exists_accepted_of_execute hout
    have hproducts := h.products_eq
    simp only [GroupedCall.Contents.slotValue_eq_addend] at hproducts
    exact ⟨h.contents, Except.ok.inj (hout.symm.trans hproducts)⟩
  · intro hslots hpadded c hroutedBy token htoken
    rw [← hsize] at hslots
    exact perm_contributions hsize hslots hpadded hroutedBy htoken

/-- Three tokens with two slots each: one slot names no expert, and the last token names the first
expert twice. -/
def wordIds : Tensor := .ofFn .u32 [3, 2] fun i => [2, 0, 7, 2, 0, 0].getD i 0

/-- The grouping of the sample for three experts. -/
def wordGrouping : Alignment := .ofIds 16 3 wordIds.ints

/-- The weights of the sample's slots. -/
def wordWeights : Tensor := .ofFn .f32 [3, 2] fun i => Single.ofInt i

/-- A call on the grouping of the sample and a packed stack. -/
def wordCall (x : Experts) : GroupedCall where
  shape := {
    tokens := 3, columns := 64, rows := 64, padded := wordGrouping.padded, experts := 3
    chosen := 2, block := 16, replicated := true, weighted := true }
  activations := .ofFn .f32 [3, 64] fun i => Single.ofInt i
  packed := x.packed
  sortedIds := wordGrouping.idTensor
  weights := some wordWeights
  scales := x.scales
  offsets := wordGrouping.offsetTensor

/-- Three tokens on three experts, one of them without tokens, have the same rows, groups and
addends in both computations. -/
theorem exists_agrees_wordIds :
    ∃ routed, Alignment.ofTensor wordIds 16 3 = .ok wordGrouping ∧
      routedRows wordIds (some wordWeights) 3 = .ok routed ∧
      Agrees wordIds (some wordWeights) 3 2 3 wordGrouping routed ∧
      routed.map Routed.expert = [0, 2] ∧ routed.map Routed.tokens = [[0, 2, 2], [0, 1]] ∧
      ∃ x, Experts.quantize GroupedCall.sampleWeights .uint4b8 32 = .ok x ∧
        (wordCall x).RoutedBy wordGrouping 3 2 3 (some wordWeights) ∧
        (∃ out, ((wordCall x).products (.forShape 64 64 16)).1 = .ok out) ∧
        ∀ token < 3, ((wordCall x).contributions token).Perm (contributions routed token) := by
  have hweights : ∀ t, some wordWeights = some t → t.shape = [3, 2] := by
    rintro t ⟨⟩
    rfl
  obtain ⟨a, routed, ha, hrouted, hagrees⟩ := exists_agrees (rfl : wordIds.element = .u32)
    (rfl : wordIds.shape = [3, 2]) hweights (by decide : 1 ≤ 16) (by decide : 1 ≤ 3)
  have hgrouping : wordGrouping = a := Except.ok.inj ha
  subst hgrouping
  have hsize : wordIds.ints.size = 6 := Tensor.size_ints wordIds
  have hslots : wordIds.ints.size < twoTo 32 := by
    rw [hsize]
    decide
  have hpadded : wordGrouping.padded < twoTo 32 := by decide +kernel
  have hpackable : Support.Packable .uint4b8 64 64 32 :=
    ⟨rfl, by decide, rfl, rfl, fun _ => rfl, by decide, by decide⟩
  obtain ⟨x, hx⟩ := Experts.exists_quantize hpackable
    (rfl : GroupedCall.sampleWeights.shape = [3, 64, 64])
  have hroutedBy : (wordCall x).RoutedBy wordGrouping 3 2 3 (some wordWeights) :=
    ⟨rfl, rfl, rfl, rfl, rfl, rfl, fun _ ht => ht⟩
  have htakes : (wordCall x).Takes wordGrouping x (.forShape 64 64 16) :=
    ⟨rfl, rfl, rfl, rfl, rfl, .inr (.inr rfl), rfl, fun _ => ⟨_, rfl, rfl⟩,
      decide_eq_true (Nat.le_of_eq Array.size_replicate.symm)⟩
  obtain ⟨o, size, scales, haccepted⟩ := htakes.exists_accepted
    (Experts.holds_quantized hx rfl (by decide : 0 < 3)) (by decide : 0 < 3) (by decide : 0 < 2)
    (by decide : 0 < 3) (by decide : 16 ∈ Block.sizes) hsize hslots hpadded
  refine ⟨routed, ha, hrouted, hagrees, ?_, ?_, x, hx, hroutedBy, ⟨_, haccepted.products_eq⟩,
    hagrees.contributions_perm (by decide) hpadded _ hroutedBy⟩
  · rw [hagrees.routed_eq]
    decide +kernel
  · rw [hagrees.routed_eq]
    decide +kernel

end Reference

end RoutedExperts
