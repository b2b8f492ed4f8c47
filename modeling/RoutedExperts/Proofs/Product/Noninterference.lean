import RoutedExperts.Proofs.Product.PerSlot

/-!
# What a grouped product does not depend on

Two calls that send the same slots to the same experts agree on their results, whatever the blocks,
the padding, the order of the slots of an expert, the workspace, and the weights of experts without
a slot. `GroupedCall.Agree` lists what the calls must share; `Agree.slotValue_eq` derives that they
give every slot the same value, so the results are the same tensors.
-/

namespace RoutedExperts

namespace GroupedCall

/-- The values of one expert, in a tensor whose first extent counts experts. -/
def expertPart {α : Type} (shape : List Nat) (values : Array α) (e : Nat) : Array α :=
  values.extract (e * volume shape.tail) ((e + 1) * volume shape.tail)

/-- Calls that share their sizes, their activations and weights, the expert that serves each slot,
and the packed words and scales of each expert that serves one. -/
structure Agree (c₁ c₂ : GroupedCall) : Prop where
  tokens_eq : c₂.shape.tokens = c₁.shape.tokens
  columns_eq : c₂.shape.columns = c₁.shape.columns
  rows_eq : c₂.shape.rows = c₁.shape.rows
  experts_eq : c₂.shape.experts = c₁.shape.experts
  chosen_eq : c₂.shape.chosen = c₁.shape.chosen
  replicated_eq : c₂.shape.replicated = c₁.shape.replicated
  weighted_eq : c₂.shape.weighted = c₁.shape.weighted
  activations_eq : c₂.activations = c₁.activations
  packed_shape : c₂.packed.shape = c₁.packed.shape
  scales_shape : c₂.scales.shape = c₁.scales.shape
  serves_iff : ∀ slot < c₁.shape.slots, ∀ e < c₁.shape.experts,
    Plan.Serves c₂.sortedIds.ints c₂.offsets.ints e slot ↔
      Plan.Serves c₁.sortedIds.ints c₁.offsets.ints e slot
  words_eq : ∀ slot < c₁.shape.slots, ∀ e < c₁.shape.experts,
    Plan.Serves c₁.sortedIds.ints c₁.offsets.ints e slot →
      expertPart c₂.packed.shape c₂.packed.words e = expertPart c₁.packed.shape c₁.packed.words e
  scales_eq : ∀ slot < c₁.shape.slots, ∀ e < c₁.shape.experts,
    Plan.Serves c₁.sortedIds.ints c₁.offsets.ints e slot →
      expertPart c₂.scales.shape c₂.scales.singles e =
        expertPart c₁.scales.shape c₁.scales.singles e
  weights_eq : c₁.shape.weighted = true → c₂.weights = c₁.weights

/-- Stacks with the same part of an expert have the same entries there. -/
theorem getD_of_expertPart_eq {α : Type} {shape : List Nat} {a b : Array α} {e i : Nat}
    (h : expertPart shape a e = expertPart shape b e) (hi : i < volume shape.tail) (d : α) :
    a.getD (e * volume shape.tail + i) d = b.getD (e * volume shape.tail + i) d := by
  have hread : ∀ x : Array α,
      (expertPart shape x e)[i]? = x[e * volume shape.tail + i]? := by
    intro x
    rw [expertPart, Array.getElem?_extract, Nat.succ_mul]
    split
    · rfl
    · rw [Array.getElem?_eq_none]
      omega
  rw [Array.getD_eq_getD_getElem?, Array.getD_eq_getD_getElem?, ← hread a, ← hread b, h]

/-- The part of an expert holds its packed words. -/
theorem HoldsType.expertWords_eq {c : GroupedCall} {type : WeightType} (h : c.HoldsType type)
    (hs : c.shape.Sound) (e : Nat) :
    c.expertWords type e = expertPart c.packed.shape c.packed.words e := by
  have hshare : volume c.packed.shape.tail =
      WeightLayout.packedSize c.shape.rows c.shape.columns type := by
    rw [h.shape_eq, Experts.packedShape, List.tail_cons, volume_pair,
      WeightLayout.packedSize_eq_bands hs.tiled]
  simp only [expertWords, expertPart, hshare]

namespace Agree

variable {c₁ c₂ : GroupedCall} {w₁ w₂ : Workspace} {o₁ o₂ : Operands} {g₁ g₂ : Int}
  {scales₁ scales₂ : Tensor}

/-- Calls that agree have equally many slots. -/
theorem slots_eq (h : Agree c₁ c₂) : c₂.shape.slots = c₁.shape.slots := by
  rw [ProductShape.slots, ProductShape.slots, h.tokens_eq, h.chosen_eq]

/-- The shape of the packed words leaves one weight type. -/
theorem type_eq (h : Agree c₁ c₂) (h₁ : c₁.Accepted w₁ o₁ g₁ scales₁)
    (h₂ : c₂.Accepted w₂ o₂ g₂ scales₂) : o₂.type = o₁.type := by
  have hshape := h₂.holdsType.shape_eq
  rw [h.packed_shape, h.experts_eq, h.rows_eq, h.columns_eq] at hshape
  have htype : c₁.HoldsType o₂.type := ⟨h₂.holdsType.biased, h₁.holdsType.element_eq, hshape⟩
  have heq := (inferType_eq_ok_iff h₁.sound _).mpr htype
  rwa [(inferType_eq_ok_iff h₁.sound _).mpr h₁.holdsType, Except.ok.injEq, eq_comm] at heq

/-- The shape of the scales leaves one count of groups and one group size. -/
theorem groups_eq (h : Agree c₁ c₂) (h₁ : c₁.Accepted w₁ o₁ g₁ scales₁)
    (h₂ : c₂.Accepted w₂ o₂ g₂ scales₂) : o₂.groups = o₁.groups ∧ g₂ = g₁ := by
  have hshape := h₂.holdsGroups.shape_eq
  rw [h.scales_shape, h₁.holdsGroups.shape_eq] at hshape
  have hgroups : o₂.groups = o₁.groups := by
    simp only [List.cons.injEq] at hshape
    exact hshape.2.1.symm
  have hsize := h₂.holdsGroups.size_eq
  rw [h.rows_eq, hgroups, h₁.holdsGroups.size_eq, Except.ok.injEq] at hsize
  exact ⟨hgroups, hsize.symm⟩

/-- An expert with a slot has the same stored values in both calls. -/
theorem values_eq (h : Agree c₁ c₂) (h₁ : c₁.Accepted w₁ o₁ g₁ scales₁)
    (h₂ : c₂.Accepted w₂ o₂ g₂ scales₂) {e slot : Nat} (hslot : slot < c₁.shape.slots)
    (hs : Plan.Serves c₁.sortedIds.ints c₁.offsets.ints e slot) :
    h₂.contents.values e = h₁.contents.values e := by
  have he := h₁.routing.lt_experts hs
  have hunpack₁ := h₁.contents.unpack_eq e he
  have hunpack₂ := h₂.contents.unpack_eq e (by rwa [h.experts_eq])
  have htype : h₂.contents.type = h₁.contents.type := h.type_eq h₁ h₂
  rw [h₁.contents.holdsType.expertWords_eq h₁.sound] at hunpack₁
  rw [h₂.contents.holdsType.expertWords_eq h₂.sound, h.words_eq slot hslot e he hs, h.rows_eq,
    h.columns_eq, htype, hunpack₁, Except.ok.injEq] at hunpack₂
  exact hunpack₂.symm

/-- An expert with a slot has the same scales in both calls. -/
theorem scale_eq (h : Agree c₁ c₂) (h₁ : c₁.Accepted w₁ o₁ g₁ scales₁)
    (h₂ : c₂.Accepted w₂ o₂ g₂ scales₂) {e slot group n : Nat} (hslot : slot < c₁.shape.slots)
    (hs : Plan.Serves c₁.sortedIds.ints c₁.offsets.ints e slot) (hgroup : group < o₁.groups)
    (hn : n < c₁.shape.columns) :
    scales₂.singles.getD ((e * o₁.groups + group) * c₁.shape.columns + n) 0 =
      scales₁.singles.getD ((e * o₁.groups + group) * c₁.shape.columns + n) 0 := by
  have he := h₁.routing.lt_experts hs
  have hshape := h₁.holdsGroups.shape_eq
  have hplace : (e * o₁.groups + group) * c₁.shape.columns + n < volume c₁.scales.shape := by
    rw [hshape]
    exact lt_volume_triple he hgroup hn
  have hpermute₂ := h₂.unpermute_eq
  rw [h.rows_eq, h.columns_eq, (h.groups_eq h₁ h₂).2] at hpermute₂
  rw [ScaleLayout.getD_unpermute h₁.unpermute_eq hplace,
    ScaleLayout.getD_unpermute hpermute₂ (by rwa [h.scales_shape])]
  -- a run lies inside the row of its group, so the stored place belongs to the same expert
  generalize ScaleOrder.ofGroupSize c₁.shape.rows g₁ = order
  have hcolumns : c₁.shape.columns % order.run = 0 := Nat.mod_eq_zero_of_dvd
    (order.run_dvd.trans (Nat.dvd_of_mod_eq_zero h₁.sound.columns_mod))
  have hrow : (e * o₁.groups + group) * c₁.shape.columns % order.run = 0 := by
    rw [Nat.mul_mod, hcolumns, Nat.mul_zero, Nat.zero_mod]
  have hstored := ScaleLayout.target_inRun_lt hcolumns hn
  have hinside := rowMajor_lt hgroup hstored
  have hpart : volume c₁.scales.shape.tail = o₁.groups * c₁.shape.columns := by
    rw [hshape, List.tail_cons, volume_pair]
  have hequal := h.scales_eq slot hslot e he hs
  rw [h.scales_shape] at hequal
  have hread := getD_of_expertPart_eq hequal (hpart ▸ hinside) 0
  rw [ScaleLayout.inRun_add order.run_pos hrow, Nat.add_mul, Nat.mul_assoc, Nat.add_assoc]
  rwa [hpart] at hread

/-- An expert with a slot has the same weights in both calls. -/
theorem weight_eq (h : Agree c₁ c₂) (h₁ : c₁.Accepted w₁ o₁ g₁ scales₁)
    (h₂ : c₂.Accepted w₂ o₂ g₂ scales₂) {e slot k n : Nat} (hslot : slot < c₁.shape.slots)
    (hs : Plan.Serves c₁.sortedIds.ints c₁.offsets.ints e slot) (hk : k < c₁.shape.rows)
    (hn : n < c₁.shape.columns) :
    h₂.contents.weight e k n = h₁.contents.weight e k n := by
  have hscale := h.scale_eq h₁ h₂ hslot hs (h₁.holdsGroups.group_lt hk) hn
  simp only [Contents.weight, h.values_eq h₁ h₂ hslot hs, h.columns_eq, h.rows_eq]
  simp only [Accepted.contents, h.type_eq h₁ h₂, (h.groups_eq h₁ h₂).1, hscale]

/-- Calls that agree have the same factor for every slot. -/
theorem slotFactor_eq (h : Agree c₁ c₂) (slot : Nat) : c₂.slotFactor slot = c₁.slotFactor slot := by
  unfold slotFactor
  rw [h.weighted_eq]
  cases hw : c₁.shape.weighted with
  | false => rfl
  | true => rw [h.weights_eq hw]

/-- A slot has the same product with the expert that serves it in both calls. -/
theorem slotProduct_eq (h : Agree c₁ c₂) (h₁ : c₁.Accepted w₁ o₁ g₁ scales₁)
    (h₂ : c₂.Accepted w₂ o₂ g₂ scales₂) {e slot n : Nat} (hslot : slot < c₁.shape.slots)
    (hs : Plan.Serves c₁.sortedIds.ints c₁.offsets.ints e slot) (hn : n < c₁.shape.columns) :
    h₂.contents.slotProduct e slot n = h₁.contents.slotProduct e slot n := by
  simp only [Contents.slotProduct, Contents.rowProduct, h.rows_eq, h.replicated_eq, h.chosen_eq,
    h.activations_eq, h.slotFactor_eq]
  apply congrArg (· * c₁.slotFactor slot)
  apply sumProducts_congr (fun _ _ => rfl)
  intro k hk
  exact h.weight_eq h₁ h₂ hslot hs hk hn

/-- Every slot has the same value in both calls. -/
theorem slotValue_eq (h : Agree c₁ c₂) (h₁ : c₁.Accepted w₁ o₁ g₁ scales₁)
    (h₂ : c₂.Accepted w₂ o₂ g₂ scales₂) {slot n : Nat} (hslot : slot < c₁.shape.slots)
    (hn : n < c₁.shape.columns) :
    h₂.contents.slotValue slot n = h₁.contents.slotValue slot n := by
  by_cases hserved : ∃ e, Plan.Serves c₁.sortedIds.ints c₁.offsets.ints e slot
  · obtain ⟨e, hs⟩ := hserved
    have hs₂ := (h.serves_iff slot hslot e (h₁.routing.lt_experts hs)).mpr hs
    rw [h₁.contents.slotValue_of_serves h₁.routing hslot hs,
      h₂.contents.slotValue_of_serves h₂.routing (h.slots_eq ▸ hslot) hs₂,
      h.slotProduct_eq h₁ h₂ hslot hs hn]
  · have hnone₂ : ∀ e, ¬ Plan.Serves c₂.sortedIds.ints c₂.offsets.ints e slot := by
      intro e hs₂
      have he := h₂.routing.lt_experts hs₂
      exact hserved ⟨e, (h.serves_iff slot hslot e (h.experts_eq ▸ he)).mp hs₂⟩
    rw [h₁.contents.slotValue_of_forall_not_serves fun e hs => hserved ⟨e, hs⟩,
      h₂.contents.slotValue_of_forall_not_serves hnone₂]

/-- The rows of the slots are the same in both calls. -/
theorem slotProducts_eq (h : Agree c₁ c₂) (h₁ : c₁.Accepted w₁ o₁ g₁ scales₁)
    (h₂ : c₂.Accepted w₂ o₂ g₂ scales₂) : (c₂.slotProducts w₂).1 = (c₁.slotProducts w₁).1 := by
  rw [h₁.slotProducts_eq, h₂.slotProducts_eq, h.activations_eq, h.tokens_eq, h.chosen_eq,
    h.columns_eq]
  apply congrArg Except.ok
  apply Tensor.ofFn_congr
  intro i hi
  have hslot : i / c₁.shape.columns < c₁.shape.slots := div_lt_of_lt_volume_triple hi
  rw [h.slotValue_eq h₁ h₂ hslot (Nat.mod_lt i h₁.sound.columns_pos)]

/-- The rows of the tokens are the same in both calls. -/
theorem products_eq (h : Agree c₁ c₂) (h₁ : c₁.Accepted w₁ o₁ g₁ scales₁)
    (h₂ : c₂.Accepted w₂ o₂ g₂ scales₂) : (c₂.products w₂).1 = (c₁.products w₁).1 := by
  rw [h₁.products_eq, h₂.products_eq, h.activations_eq, h.tokens_eq, h.chosen_eq, h.columns_eq]
  apply congrArg Except.ok
  apply Tensor.ofFn_congr
  intro i hi
  have htoken := div_lt_of_lt_volume_pair hi
  apply congrArg c₁.activations.element.ofSingle
  apply List.foldl_ext
  intro sum j hj
  rw [h.slotValue_eq h₁ h₂ (rowMajor_lt htoken (List.mem_range.mp hj))
    (Nat.mod_lt i h₁.sound.columns_pos)]

end Agree

/-- Calls that agree and are both answered have the same answers. -/
theorem results_eq_of_agree {c₁ c₂ : GroupedCall} (h : Agree c₁ c₂) (w₁ w₂ : Workspace) :
    (∀ out₁ out₂, (c₁.products w₁).1 = .ok out₁ → (c₂.products w₂).1 = .ok out₂ →
        out₁ = out₂) ∧
      ∀ out₁ out₂, (c₁.slotProducts w₁).1 = .ok out₁ → (c₂.slotProducts w₂).1 = .ok out₂ →
        out₁ = out₂ := by
  constructor
  · intro out₁ out₂ hout₁ hout₂
    obtain ⟨_, _, _, h₁⟩ := exists_accepted_of_execute hout₁
    obtain ⟨_, _, _, h₂⟩ := exists_accepted_of_execute hout₂
    rwa [h.products_eq h₁ h₂, hout₁, Except.ok.injEq] at hout₂
  · intro out₁ out₂ hout₁ hout₂
    obtain ⟨_, _, _, h₁⟩ := exists_accepted_of_execute hout₁
    obtain ⟨_, _, _, h₂⟩ := exists_accepted_of_execute hout₂
    rwa [h.slotProducts_eq h₁ h₂, hout₁, Except.ok.injEq] at hout₂

/-- The words of an expert of the sample call depend on its own seed alone. -/
theorem expertPart_words_sampleCall (block : Nat) (ids offsets : List Int64)
    (seed : Nat → UInt32) {e : Nat} (he : e < 3) :
    expertPart (sampleCall block ids offsets seed).packed.shape
        (sampleCall block ids offsets seed).packed.words e =
      Array.ofFn fun i : Fin 512 => seed e + (e * 512 + i).toUInt32 := by
  have hshape : (sampleCall block ids offsets seed).packed.shape = [3, 4, 128] := rfl
  have hpart : volume [3, 4, 128].tail = 512 := rfl
  have hwords : (sampleCall block ids offsets seed).packed.words.size = 1536 :=
    Tensor.size_words _
  rw [hshape, expertPart, hpart]
  apply Array.ext_getElem?
  intro i
  rw [Array.getElem?_extract, hwords, Array.getElem?_ofFn]
  by_cases hi : i < 512
  · have hplace : e * 512 + i < volume [3, 4, 128] := rowMajor_lt he hi
    rw [if_pos (by omega), dif_pos hi]
    have hentry := Tensor.getElem?_words_ofFn .u32 (fun i => seed (i / 512) + i.toUInt32) hplace
    rw [rowMajor_div e hi] at hentry
    exact hentry
  · rw [if_neg (by omega), dif_neg hi]

/-- Samples agree if they serve the same slots and their words begin alike in each expert with a
slot. -/
theorem agree_sampleCall {block₁ block₂ : Nat} {ids₁ ids₂ offsets₁ offsets₂ : List Int64}
    {seed₁ seed₂ : Nat → UInt32}
    (hserves : ∀ slot < 4, ∀ e < 3,
      Plan.Serves (sampleCall block₂ ids₂ offsets₂ seed₂).sortedIds.ints
          (sampleCall block₂ ids₂ offsets₂ seed₂).offsets.ints e slot ↔
        Plan.Serves (sampleCall block₁ ids₁ offsets₁ seed₁).sortedIds.ints
          (sampleCall block₁ ids₁ offsets₁ seed₁).offsets.ints e slot)
    (hseed : ∀ e < 3, seed₂ e ≠ seed₁ e → ∀ slot < 4,
      ¬ Plan.Serves (sampleCall block₁ ids₁ offsets₁ seed₁).sortedIds.ints
        (sampleCall block₁ ids₁ offsets₁ seed₁).offsets.ints e slot) :
    Agree (sampleCall block₁ ids₁ offsets₁ seed₁) (sampleCall block₂ ids₂ offsets₂ seed₂) where
  tokens_eq := rfl
  columns_eq := rfl
  rows_eq := rfl
  experts_eq := rfl
  chosen_eq := rfl
  replicated_eq := rfl
  weighted_eq := rfl
  activations_eq := rfl
  packed_shape := Eq.trans (b := [3, 4, 128]) rfl rfl
  scales_shape := rfl
  serves_iff := hserves
  words_eq := by
    intro slot hslot e he hs
    have hbegin : seed₂ e = seed₁ e := by_contra fun hne => hseed e he hne slot hslot hs
    rw [expertPart_words_sampleCall _ _ _ _ he, expertPart_words_sampleCall _ _ _ _ he, hbegin]
  scales_eq := by
    intro slot _ e _ _
    have hscales : (sampleCall block₂ ids₂ offsets₂ seed₂).scales =
        (sampleCall block₁ ids₁ offsets₁ seed₁).scales := rfl
    rw [hscales]
  weights_eq := fun _ => rfl

/-- The sample in larger blocks, with other padding in other places, the first two slots in the
other order, and for the expert without a slot a block of padding and other words. -/
def looseCall : GroupedCall :=
  sampleCall 32 ([-1, 0, 9, 1] ++ List.replicate 59 (-7) ++ [2] ++ List.replicate 32 4)
    [0, 32, 64, 96] fun e => if e = 2 then 9 else 5

/-- The call with larger blocks and more padding is accepted. -/
theorem exists_accepted_looseCall : ∃ o groupSize scales,
    looseCall.Accepted (.forShape 64 64 48) o groupSize scales := by
  have hroom : Workspace.required 64 64 32 ≤ (Workspace.forShape 64 64 48).size := by
    rw [Workspace.forShape, Workspace.ofSize, Workspace.size, Array.size_replicate]
    decide
  apply exists_accepted_sampleCall (by decide) _ hroom
  exact ⟨⟨rfl, rfl⟩, ⟨rfl, rfl⟩, by decide +kernel, ⟨by decide +kernel, by decide +kernel,
    by decide +kernel, by decide +kernel, by decide +kernel⟩, by decide +kernel⟩

/-- The two sample calls agree on all that the result depends on. -/
theorem agree_tightCall_looseCall : Agree tightCall looseCall :=
  agree_sampleCall (by decide +kernel) (by decide +kernel)

/-- Two calls that differ in blocks, padding, the order in segments and the weights of an expert
without tokens have the same results. -/
theorem results_eq_of_agree_tightCall_looseCall :
    Agree tightCall looseCall ∧
      (∃ out, (tightCall.products (.forShape 64 64 16)).1 = .ok out ∧
        (looseCall.products (.forShape 64 64 48)).1 = .ok out) ∧
      ∃ out, (tightCall.slotProducts (.forShape 64 64 16)).1 = .ok out ∧
        (looseCall.slotProducts (.forShape 64 64 48)).1 = .ok out := by
  obtain ⟨_, _, _, h₁⟩ := exists_accepted_tightCall
  obtain ⟨_, _, _, h₂⟩ := exists_accepted_looseCall
  obtain ⟨hsums, hrows⟩ := results_eq_of_agree agree_tightCall_looseCall (.forShape 64 64 16)
    (.forShape 64 64 48)
  refine ⟨agree_tightCall_looseCall, ⟨_, h₁.products_eq, ?_⟩, ⟨_, h₁.slotProducts_eq, ?_⟩⟩
  · rw [hsums _ _ h₁.products_eq h₂.products_eq]
    exact h₂.products_eq
  · rw [hrows _ _ h₁.slotProducts_eq h₂.slotProducts_eq]
    exact h₂.slotProducts_eq

end GroupedCall

end RoutedExperts
