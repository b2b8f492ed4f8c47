import RoutedExperts.Proofs.Product.Engine
import RoutedExperts.Proofs.Product.Grouped
import RoutedExperts.Proofs.Quantization.Experts

/-!
# Grouped products slot by slot

The definition of a grouped product that does not mention blocks, workspaces or staging. A call's
packed words and stored scales have `Contents`: values in row-major order and scales in column
order. From these `Contents.slotProduct` is the product of one slot, a sum from the first weight row
to the last, and `Contents.slotValue` is that product for the expert that serves the slot and zero
for a slot that none serves. `Accepted.slotProducts_eq` and `Accepted.products_eq` say that the
engine computes exactly these numbers, and rounds each of them once.
-/

namespace RoutedExperts

namespace GroupedCall

/-- The packed words of one expert. -/
def expertWords (c : GroupedCall) (type : WeightType) (expert : Nat) : Array UInt32 :=
  let size := WeightLayout.packedSize c.shape.rows c.shape.columns type
  c.packed.words.extract (expert * size) ((expert + 1) * size)

/-- What the packed words and the stored scales of a call hold. -/
structure Contents (c : GroupedCall) where
  type : WeightType
  /-- Scale groups of a column. -/
  groups : Nat
  groupSize : Int
  /-- The stored values of each expert in row-major order. -/
  values : Nat → Array UInt32
  /-- The scales of all experts and groups in column order. -/
  scales : Tensor
  holdsType : c.HoldsType type
  scales_shape : c.scales.shape = [c.shape.experts, groups, c.shape.columns]
  groupSize_eq : Support.groupSizeOfCount c.shape.rows groups = .ok groupSize
  unpack_eq : ∀ e < c.shape.experts,
    WeightLayout.unpack (c.expertWords type e) c.shape.rows c.shape.columns type = .ok (values e)
  unpermute_eq : ScaleLayout.unpermute c.scales c.shape.rows c.shape.columns groupSize = .ok scales

/-- The factor of a slot's product. -/
def slotFactor (c : GroupedCall) (slot : Nat) : Float32 :=
  if c.shape.weighted then (c.weights.elim #[] Tensor.singles).getD slot 0 else 1

namespace Contents

variable {c : GroupedCall}

/-- The weight of an expert at row `k` and column `n`: the stored value without its bias, times the
scale of its group. -/
def weight (t : c.Contents) (e k n : Nat) : Float32 :=
  Single.ofInt (((t.values e).getD (k * c.shape.columns + n) 0).toNat - t.type.bias) *
    t.scales.singles.getD ((e * t.groups + k / (c.shape.rows / t.groups)) * c.shape.columns + n) 0

/-- The product of a slot's row with a column of an expert, summed from the first weight row to the
last. A slot reads the row of its token if rows are replicated, and else a row of its own. -/
def rowProduct (t : c.Contents) (slot e n : Nat) : Float32 :=
  let row := if c.shape.replicated then slot / c.shape.chosen else slot
  sumProducts c.shape.rows (fun k => c.activations.singles.getD (row * c.shape.rows + k) 0)
    (t.weight e · n)

/-- The product of a slot with an expert's weights, multiplied by the slot's factor. -/
def slotProduct (t : c.Contents) (e slot n : Nat) : Float32 :=
  t.rowProduct slot e n * c.slotFactor slot

/-- The value of a slot: its product with the expert that serves it, or zero if none does. -/
def slotValue (t : c.Contents) (slot n : Nat) : Float32 :=
  match (List.range c.shape.experts).find? fun e =>
    Plan.Serves c.sortedIds.ints c.offsets.ints e slot with
  | some e => t.slotProduct e slot n
  | none => 0

end Contents

variable {c : GroupedCall} {w : Workspace} {o : Operands} {groupSize : Int} {scales : Tensor}

/-- Every expert has its share of the packed words. -/
theorem HoldsType.size_expertWords {type : WeightType} (h : c.HoldsType type)
    (hs : c.shape.Sound) {e : Nat} (he : e < c.shape.experts) :
    (c.expertWords type e).size =
      WeightLayout.packedSize c.shape.rows c.shape.columns type := by
  have hwords : c.packed.words.size = c.shape.experts *
      WeightLayout.packedSize c.shape.rows c.shape.columns type := by
    rw [Tensor.size_words, h.shape_eq, Experts.volume_packedShape hs.tiled]
  exact size_share hwords he

namespace Accepted

/-- The contents that the operands of an accepted call are read from. -/
def contents (h : c.Accepted w o groupSize scales) : c.Contents where
  type := o.type
  groups := o.groups
  groupSize := groupSize
  values := Engine.expertValues c.shape o
  scales := scales
  holdsType := h.holdsType
  scales_shape := h.holdsGroups.shape_eq
  groupSize_eq := h.holdsGroups.size_eq
  unpack_eq := by
    intro e he
    refine (WeightLayout.unpack_eq_ok_iff ..).mpr
      ⟨h.sound.tiled, h.holdsType.size_expertWords h.sound he, ?_⟩
    simp only [Engine.expertValues, expertWords, h.words_eq]
  unpermute_eq := h.unpermute_eq

/-- The weight of the contents is the one that the engine multiplies by. -/
theorem weight_contents (h : c.Accepted w o groupSize scales) (e k : Nat) {n : Nat}
    (hn : n < c.shape.columns) : h.contents.weight e k n = Engine.weight c.shape o e k n := by
  simp only [Contents.weight, contents, Engine.weight, Engine.tileEntry, dequantize,
    rowMajor_div k hn, rowMajor_mod k hn, h.scales_eq]

/-- The factor of a slot is the one that the engine multiplies by. -/
theorem slotFactor_eq (h : c.Accepted w o groupSize scales) (slot : Nat) :
    c.slotFactor slot = Engine.slotWeight o slot := by
  unfold slotFactor Engine.slotWeight
  cases hw : c.shape.weighted with
  | false =>
    rw [h.holdsWeights.none_of_not_weighted hw]
    rfl
  | true =>
    obtain ⟨t, ht, _, ho⟩ := h.holdsWeights.some_of_weighted hw
    rw [ht, ho]
    rfl

/-- The product of the contents for a slot is that of the engine. -/
theorem slotProduct_contents (h : c.Accepted w o groupSize scales) (e slot : Nat) {n : Nat}
    (hn : n < c.shape.columns) :
    h.contents.slotProduct e slot n = Engine.slotProduct c.shape o e slot n := by
  simp only [Contents.slotProduct, Contents.rowProduct, Engine.slotProduct,
    ProductShape.activationRow, h.weight_contents e _ hn, h.slotFactor_eq, h.activations_eq]

end Accepted

/-! ### The value of a slot -/

namespace Contents

/-- The value of a slot is its product with the expert that serves it. -/
theorem slotValue_of_serves (t : c.Contents)
    (hroute : Plan.Valid c.sortedIds c.offsets c.shape.padded c.shape.experts c.shape.block
      c.shape.slots) {e slot : Nat} (hslot : slot < c.shape.slots)
    (hs : Plan.Serves c.sortedIds.ints c.offsets.ints e slot) (n : Nat) :
    t.slotValue slot n = t.slotProduct e slot n := by
  have hfind : (List.range c.shape.experts).find? (fun e =>
      Plan.Serves c.sortedIds.ints c.offsets.ints e slot) = some e := by
    obtain ⟨e', he'⟩ : ∃ e', (List.range c.shape.experts).find? (fun e =>
        Plan.Serves c.sortedIds.ints c.offsets.ints e slot) = some e' := by
      rw [← Option.isSome_iff_exists, List.find?_isSome]
      exact ⟨e, List.mem_range.mpr (hroute.lt_experts hs), decide_eq_true hs⟩
    have hs' := List.find?_some he'
    rw [he', hroute.expert_unique hslot hs (of_decide_eq_true hs')]
  simp only [slotValue, hfind]

/-- The value of a slot that no expert serves is zero. -/
theorem slotValue_of_forall_not_serves (t : c.Contents) {slot : Nat}
    (hnone : ∀ e, ¬ Plan.Serves c.sortedIds.ints c.offsets.ints e slot) (n : Nat) :
    t.slotValue slot n = 0 := by
  have hfind : (List.range c.shape.experts).find? (fun e =>
      Plan.Serves c.sortedIds.ints c.offsets.ints e slot) = none := by
    rw [List.find?_eq_none]
    intro e _ hs
    exact hnone e (of_decide_eq_true hs)
  simp only [slotValue, hfind]

end Contents

namespace Accepted

/-- The engine leaves the value of each slot in its row. -/
theorem slotEntry_run (h : c.Accepted w o groupSize scales) {slot n : Nat}
    (hslot : slot < c.shape.slots) (hn : n < c.shape.columns) :
    Engine.slotEntry c.shape (Engine.run c.shape o w.buffer) slot n =
      h.contents.slotValue slot n := by
  have hmem : ∀ e < c.shape.experts, slot ∈ o.plan.segment e ↔
      Plan.Serves c.sortedIds.ints c.offsets.ints e slot := by
    intro e he
    rw [h.plan_eq]
    exact h.routing.mem_segment_iff he hslot
  rw [Engine.run_eq_after]
  by_cases hserved : ∃ e, Plan.Serves c.sortedIds.ints c.offsets.ints e slot
  · obtain ⟨e, hs⟩ := hserved
    have he := h.routing.lt_experts hs
    rw [Engine.after_slotEntry_of_mem h.sound.block_pos h.room hslot hn he ((hmem e he).mpr hs)
        fun e' he' hm => h.routing.expert_unique hslot ((hmem e' he').mp hm) hs,
      h.contents.slotValue_of_serves h.routing hslot hs, h.slotProduct_contents e slot hn]
  · rw [Engine.after_slotEntry_of_forall_not_mem h.sound.block_pos h.room hslot hn
        fun e he hm => hserved ⟨e, (hmem e he).mp hm⟩,
      h.contents.slotValue_of_forall_not_serves fun e hs => hserved ⟨e, hs⟩]

/-- An accepted call runs the engine on its operands. -/
theorem execute_eq (h : c.Accepted w o groupSize scales) :
    (c.execute w).1 = .ok (Engine.run c.shape o w.buffer).slots := by
  have hprepare : c.prepare w = .ok o :=
    (prepare_eq_ok_iff c w o).mpr ⟨groupSize, scales, h⟩
  simp only [execute, hprepare]

/-- The rows of the slots hold their values, rounded once. -/
theorem slotProducts_eq (h : c.Accepted w o groupSize scales) :
    (c.slotProducts w).1 = .ok (Tensor.ofFn c.activations.element
      [c.shape.tokens, c.shape.chosen, c.shape.columns] fun i => c.activations.element.ofSingle
        (h.contents.slotValue (i / c.shape.columns) (i % c.shape.columns))) := by
  have hcolumns := h.sound.columns_pos
  simp only [slotProducts, h.execute_eq, Except.map, Tensor.ofSingles]
  apply congrArg Except.ok
  apply Tensor.ofFn_congr
  intro i hi
  have hslot : i / c.shape.columns < c.shape.slots := div_lt_of_lt_volume_triple hi
  have hentry := h.slotEntry_run hslot (Nat.mod_lt i hcolumns)
  rw [Engine.slotEntry, div_mul_add_mod] at hentry
  rw [hentry]

/-- The rows of the tokens hold the sums of their slots' values, rounded once. -/
theorem products_eq (h : c.Accepted w o groupSize scales) :
    (c.products w).1 = .ok (Tensor.ofFn c.activations.element [c.shape.tokens, c.shape.columns]
      fun i => c.activations.element.ofSingle
        ((List.range c.shape.chosen).foldl (fun sum j => sum + h.contents.slotValue
          (i / c.shape.columns * c.shape.chosen + j) (i % c.shape.columns)) 0)) := by
  have hcolumns := h.sound.columns_pos
  simp only [products, h.execute_eq, Except.map, Tensor.ofSingles]
  apply congrArg Except.ok
  apply Tensor.ofFn_congr
  intro i hi
  have htoken := div_lt_of_lt_volume_pair hi
  have hn := Nat.mod_lt i hcolumns
  have hsum := Engine.getD_reduce (Engine.run c.shape o w.buffer).slots htoken hn
  rw [div_mul_add_mod] at hsum
  rw [hsum]
  apply congrArg c.activations.element.ofSingle
  apply List.foldl_ext
  intro sum j hj
  rw [← h.slotEntry_run (rowMajor_lt htoken (List.mem_range.mp hj)) hn, Engine.slotEntry]

end Accepted

/-! ### Results of a call -/

/-- Only accepted calls have results. -/
theorem exists_accepted_of_execute {α : Type} {f : Array Float32 → α} {out : α}
    (h : (c.execute w).1.map f = .ok out) :
    ∃ o groupSize scales, c.Accepted w o groupSize scales := by
  cases hprepare : c.prepare w with
  | error e => simp only [execute, hprepare, Except.map, reduceCtorEq] at h
  | ok o => exact ⟨o, (prepare_eq_ok_iff c w o).mp hprepare⟩

/-- The rows of the slots and the sums of each token's rows, as the contents of a call define them
slot by slot. -/
structure PerSlot (t : c.Contents) (rows sums : Tensor) : Prop where
  /-- The value of a slot is the product with the expert between whose offsets its id stands. -/
  value_of_serves : ∀ slot < c.shape.slots, ∀ e n,
    Plan.Serves c.sortedIds.ints c.offsets.ints e slot → t.slotValue slot n = t.slotProduct e slot n
  /-- A slot whose id stands anywhere is served by an expert. -/
  exists_serves : ∀ slot < c.shape.slots, (slot : Int) ∈ c.sortedIds.ints →
    ∃ e < c.shape.experts, Plan.Serves c.sortedIds.ints c.offsets.ints e slot
  /-- The value of a slot whose id stands nowhere is zero. -/
  value_of_not_mem : ∀ slot < c.shape.slots, ∀ n,
    (slot : Int) ∉ c.sortedIds.ints → t.slotValue slot n = 0
  rows_shape : rows.shape = [c.shape.tokens, c.shape.chosen, c.shape.columns]
  rows_entry : ∀ m < c.shape.tokens, ∀ j < c.shape.chosen, ∀ n < c.shape.columns,
    rows.HasEntry ((m * c.shape.chosen + j) * c.shape.columns + n)
      (c.activations.element.ofSingle (t.slotValue (m * c.shape.chosen + j) n))
  sums_shape : sums.shape = [c.shape.tokens, c.shape.columns]
  sums_entry : ∀ m < c.shape.tokens, ∀ n < c.shape.columns,
    sums.HasEntry (m * c.shape.columns + n)
      (c.activations.element.ofSingle ((List.range c.shape.chosen).foldl
        (fun sum j => sum + t.slotValue (m * c.shape.chosen + j) n) 0))

/-- A call that returns the rows of its slots returns the rows that are defined slot by slot, and
the same call returns their sums too. -/
theorem slotProducts_perSlot {out : Tensor} (h : (c.slotProducts w).1 = .ok out) :
    ∃ (t : c.Contents) (sums : Tensor), (c.products w).1 = .ok sums ∧ PerSlot t out sums := by
  obtain ⟨o, groupSize, scales, ha⟩ := exists_accepted_of_execute h
  rw [ha.slotProducts_eq, Except.ok.injEq] at h
  subst h
  refine ⟨ha.contents, _, ha.products_eq, ?_⟩
  constructor
  · intro slot hslot e n hs
    exact ha.contents.slotValue_of_serves ha.routing hslot hs n
  · intro slot _ hmem
    exact ha.routing.exists_serves hmem
  · intro slot _ n hmem
    exact ha.contents.slotValue_of_forall_not_serves (fun e hs => hmem hs.mem) n
  · rfl
  · intro m hm j hj n hn
    simpa only [rowMajor_div _ hn, rowMajor_mod _ hn] using
      Tensor.hasEntry_ofFn c.activations.element (fun i => c.activations.element.ofSingle
        (ha.contents.slotValue (i / c.shape.columns) (i % c.shape.columns)))
          (lt_volume_triple hm hj hn)
  · rfl
  · intro m hm n hn
    simpa only [rowMajor_div _ hn, rowMajor_mod _ hn] using
      Tensor.hasEntry_ofFn c.activations.element (fun i => c.activations.element.ofSingle
        ((List.range c.shape.chosen).foldl (fun sum j => sum + ha.contents.slotValue
          (i / c.shape.columns * c.shape.chosen + j) (i % c.shape.columns)) 0))
            (lt_volume_pair hm hn)

/-- A call with two tokens of two slots each and three experts, whose packed words begin at `seed`
in every expert. -/
def sampleCall (block : Nat) (ids offsets : List Int64) (seed : Nat → UInt32) : GroupedCall where
  shape := {
    tokens := 2, columns := 64, rows := 64, padded := ids.length, experts := 3, chosen := 2
    block := block, replicated := true, weighted := true }
  activations := .ofFn .f32 [2, 64] fun i => Single.ofInt i
  packed := .ofFn .u32 [3, 4, 128] fun i => seed (i / 512) + i.toUInt32
  sortedIds := .ofFn .i64 [ids.length] fun i => ids.getD i 0
  weights := some (.ofFn .f32 [2, 2] fun i => Single.ofInt i)
  scales := .ofFn .f32 [3, 2, 64] fun i => Single.ofInt i
  offsets := .ofFn .i64 [offsets.length] fun i => offsets.getD i 0

/-- The sample call is accepted with any routing that is valid and any workspace with room. -/
theorem exists_accepted_sampleCall {block : Nat} {ids offsets : List Int64}
    {seed : Nat → UInt32} {w : Workspace} (hblock : block ∈ Block.sizes)
    (hroute : Plan.Valid (sampleCall block ids offsets seed).sortedIds
      (sampleCall block ids offsets seed).offsets ids.length 3 block 4)
    (hroom : Workspace.required 64 64 block ≤ w.size) :
    ∃ o groupSize scales, (sampleCall block ids offsets seed).Accepted w o groupSize scales := by
  have hsound : (sampleCall block ids offsets seed).shape.Sound :=
    ⟨Nat.succ_pos 1, Nat.succ_pos 63, Nat.succ_pos 63, Nat.succ_pos 2, Nat.succ_pos 1, hblock,
      (rfl : 64 % 64 = 0), (rfl : 64 % 64 = 0)⟩
  have htype : (sampleCall block ids offsets seed).HoldsType .uint4b8 :=
    ⟨rfl, rfl, (by decide : [3, 4, 128] = Experts.packedShape 3 64 64 .uint4b8)⟩
  have hgroups : (sampleCall block ids offsets seed).HoldsGroups .uint4b8 2 32 :=
    ⟨rfl, rfl, (rfl : Support.groupSizeOfCount 64 2 = .ok 32),
      (by decide : Support.admits .uint4b8 32 false none = true), fun _ => (rfl : 64 % 32 = 0)⟩
  have hscales : ∃ t, ScaleLayout.unpermute (sampleCall block ids offsets seed).scales 64 64 32 =
      .ok t := ⟨_, (ScaleLayout.move_eq_ok_iff ..).mpr
        ⟨(by decide : volume [3, 2, 64] % (ScaleOrder.ofGroupSize 64 32).run = 0),
          (by decide : 64 % (ScaleOrder.ofGroupSize 64 32).run = 0), rfl⟩⟩
  obtain ⟨scales, hscales⟩ := hscales
  have hweights : (sampleCall block ids offsets seed).HoldsWeights
      (some (Tensor.ofFn .f32 [2, 2] fun i => Single.ofInt i).singles) :=
    ⟨fun _ => ⟨_, rfl, rfl, rfl⟩, nofun⟩
  obtain ⟨o, ho⟩ := exists_accepted hsound ⟨rfl, rfl⟩ htype hgroups hroute hweights hroom hscales
  exact ⟨o, 32, scales, ho⟩

/-- The sample in the smallest blocks, where the third expert has no slot and nobody serves the last
slot. -/
def tightCall : GroupedCall :=
  sampleCall 16 ([1, 0] ++ List.replicate 14 4 ++ [2] ++ List.replicate 15 4) [0, 16, 32, 32]
    fun _ => 5

/-- The sample call with the smallest blocks is accepted. -/
theorem exists_accepted_tightCall :
    ∃ o groupSize scales, tightCall.Accepted (.forShape 64 64 16) o groupSize scales := by
  apply exists_accepted_sampleCall (by decide) _ (Nat.le_of_eq Array.size_replicate.symm)
  exact ⟨⟨rfl, rfl⟩, ⟨rfl, rfl⟩, by decide +kernel, ⟨by decide +kernel, by decide +kernel,
    by decide +kernel, by decide +kernel, by decide +kernel⟩, by decide +kernel⟩

/-- A workspace for the sample in the smallest blocks that earlier products have written to. -/
def usedWorkspace : Workspace := ⟨Array.replicate (Workspace.required 64 64 16) 7⟩

/-- The sample call has a result with a value for each slot and the sum of these for each token. -/
theorem slotProducts_perSlot_tightCall :
    ∃ out, (tightCall.slotProducts (.forShape 64 64 16)).1 = .ok out ∧
      ∃ (t : tightCall.Contents) (sums : Tensor),
        (tightCall.products (.forShape 64 64 16)).1 = .ok sums ∧ PerSlot t out sums := by
  obtain ⟨o, groupSize, scales, h⟩ := exists_accepted_tightCall
  exact ⟨_, h.slotProducts_eq, slotProducts_perSlot h.slotProducts_eq⟩

end GroupedCall

end RoutedExperts
