import RoutedExperts.Proofs.Layer.BatchInvariance

/-!
# The gated network by its definition

A gated network has a definition that knows no slots, groups or blocks. The words and scales of a
packed stack hold the weights of its experts (`PackedWeights.Tiles`), an expert is a network of its
own (`Swiglu`), and the row of a token is the sum of the outputs of its experts by their weights
(`Forward.swigluSum`). The grouped products of a pass compute exactly these rows
(`Forward.gatedRow_eq_swigluSum`), and each slot has one place in them (`Routed.count_sortedIds`).
-/

namespace RoutedExperts

/-! ### The weights of a packed stack -/

/-- What the words and scales of a packed stack hold. -/
structure PackedWeights.Tiles (p : PackedWeights) (experts rows columns : Nat) where
  type : WeightType
  /-- Scale groups of a column. -/
  groups : Nat
  groupSize : Int
  /-- The stored values of each expert in row-major order. -/
  values : Nat → Array UInt32
  /-- The scales of all experts and groups in column order. -/
  scales : Tensor
  biased : type.hasZeroPoint = false
  packed_element : p.packed.element = .u32
  packed_shape : p.packed.shape = Experts.packedShape experts rows columns type
  scales_shape : p.scales.shape = [experts, groups, columns]
  groupSize_eq : Support.groupSizeOfCount rows groups = .ok groupSize
  unpack_eq : ∀ e < experts, WeightLayout.unpack (p.packed.words.extract
    (e * WeightLayout.packedSize rows columns type)
    ((e + 1) * WeightLayout.packedSize rows columns type)) rows columns type = .ok (values e)
  unpermute_eq : ScaleLayout.unpermute p.scales rows columns groupSize = .ok scales

/-- The weight of an expert at row `k` and column `n`: the stored value without its bias, times the
scale of its group. -/
def PackedWeights.Tiles.weight {p : PackedWeights} {experts rows columns : Nat}
    (t : p.Tiles experts rows columns) (e k n : Nat) : Float32 :=
  Single.ofInt (((t.values e).getD (k * columns + n) 0).toNat - t.type.bias) *
    t.scales.singles.getD ((e * t.groups + k / (rows / t.groups)) * columns + n) 0

/-- A call multiplies by the weights of its packed stack. -/
def GroupedCall.Contents.tiles {c : GroupedCall} (t : c.Contents) :
    PackedWeights.Tiles ⟨c.packed, c.scales⟩ c.shape.experts c.shape.rows c.shape.columns where
  type := t.type
  groups := t.groups
  groupSize := t.groupSize
  values := t.values
  scales := t.scales
  biased := t.holdsType.biased
  packed_element := t.holdsType.element_eq
  packed_shape := t.holdsType.shape_eq
  scales_shape := t.scales_shape
  groupSize_eq := t.groupSize_eq
  unpack_eq := t.unpack_eq
  unpermute_eq := t.unpermute_eq

/-! ### One expert -/

/-- The gated network of one expert, with `first` of shape `[features, 2 * half]` and `second` of
shape `[half, features]`. -/
structure Swiglu where
  /-- What the values between the two projections are rounded to. -/
  element : Element
  features : Nat
  half : Nat
  first : Nat → Nat → Float32
  second : Nat → Nat → Float32

namespace Swiglu

/-- Column `c` of the first projection: a gate column for `c < half`, and then an up column. -/
def gateUp (net : Swiglu) (x : Nat → Float32) (c : Nat) : Float32 :=
  net.element.toSingle (net.element.ofSingle (sumProducts net.features x (net.first · c) * 1))

/-- The gate column `i` after the activation times the up column `i`. -/
def activated (net : Swiglu) (x : Nat → Float32) (i : Nat) : Float32 :=
  net.element.toSingle (net.element.ofSingle
    (Activation.silu (net.gateUp x i) * net.gateUp x (net.half + i)))

/-- Column `n` of the second projection. -/
def output (net : Swiglu) (x : Nat → Float32) (n : Nat) : Float32 :=
  sumProducts net.half (net.activated x) (net.second · n)

/-- The output is read off the first `features` values. -/
theorem output_congr (net : Swiglu) {x x' : Nat → Float32} (h : ∀ k < net.features, x k = x' k)
    (n : Nat) : net.output x n = net.output x' n := by
  have hgateUp : net.gateUp x = net.gateUp x' := by
    funext c
    rw [gateUp, sumProducts_congr h fun _ _ => rfl, gateUp]
  have hactivated : net.activated x = net.activated x' := by
    funext i
    simp only [activated, hgateUp]
  rw [output, hactivated, output]

/-- The rows of a pass for one slot are those of the expert's network. -/
theorem rowProduct_activatedRow (net : Swiglu) {hidden : Array Float32}
    (hsize : hidden.size = net.features) (n : Nat) :
    Forward.rowProduct (Forward.activatedRow net.element net.half
        (Forward.gateUpRow net.element (2 * net.half) net.first hidden)) net.second n =
      net.output (hidden.getD · 0) n := by
  have hgateUp : ∀ c < 2 * net.half,
      (Forward.gateUpRow net.element (2 * net.half) net.first hidden).getD c 0 =
        net.gateUp (hidden.getD · 0) c := by
    intro c hc
    rw [Forward.getD_gateUpRow _ _ _ hc, Forward.rowProduct, hsize]
    rfl
  rw [Forward.rowProduct, Forward.size_activatedRow]
  apply sumProducts_congr _ fun _ _ => rfl
  intro i hi
  rw [Forward.getD_activatedRow _ _ hi, Activation.gateAt, Nat.zero_mul, Nat.zero_add, Nat.zero_add,
    hgateUp i (by omega), hgateUp (net.half + i) (by omega), activated]

end Swiglu

/-! ### All tokens -/

namespace Choice

/-- The expert of a slot. -/
def expert (c : Choice) (slot : Nat) : Nat := (c.experts.ints.getD slot 0).toNat

/-- The weight of a slot. -/
def weight (c : Choice) (slot : Nat) : Float32 := c.weights.singles.getD slot 0

end Choice

namespace Forward

variable {batch : Batch} {first second : PackedWeights} {w : Workspace}

/-- Column `n` of a token: the outputs of the networks of its slots, summed by their weights. -/
def swigluSum (batch : Batch) (features : Nat) (choice : Choice) (net : Nat → Swiglu) (m n : Nat) :
    Float32 :=
  let x := fun k => batch.hidden.singles.getD (m * features + k) 0
  (List.range batch.selection.count).foldl (fun sum j =>
    let slot := m * batch.selection.count + j
    sum + (net (choice.expert slot)).output x n * choice.weight slot) 0

/-- The row of a token is the sum over the experts that the selection names. -/
theorem gatedRow_eq_swigluSum {tokens features experts half m : Nat} {r : Routing}
    (hr : Routed batch tokens experts r) (hshape : batch.hidden.shape = [tokens, features])
    (hm : m < tokens) (weight₁ weight₂ : Nat → Nat → Nat → Float32) (n : Nat) :
    gatedRow batch.hidden.element batch.selection half weight₁ weight₂
        (TopK.tokenRow batch.hidden.singles features m) (Routed.logits batch experts m) n =
      swigluSum batch features (TopK.choice batch.gating batch.selection tokens experts)
        (fun e => ⟨batch.hidden.element, features, half, weight₁ e, weight₂ e⟩) m n := by
  apply List.foldl_ext
  intro sum j hj
  have hj : j < batch.selection.count := List.mem_range.mp hj
  have hexpert : (TopK.choice batch.gating batch.selection tokens experts).expert
      (m * batch.selection.count + j) =
        TopK.rowExpert batch.selection (Routed.logits batch experts m) j := by
    rw [Choice.expert, Array.getD_eq_getD_getElem?, hr.getElem?_ids hm hj]
    rfl
  have hweight : (TopK.choice batch.gating batch.selection tokens experts).weight
      (m * batch.selection.count + j) =
        TopK.rowWeight batch.selection (Routed.logits batch experts m) j := by
    rw [Choice.weight, ← hr.weights_eq, hr.getD_weights hm hj]
  let net : Swiglu := ⟨batch.hidden.element, features, half,
    weight₁ (TopK.rowExpert batch.selection (Routed.logits batch experts m) j),
    weight₂ (TopK.rowExpert batch.selection (Routed.logits batch experts m) j)⟩
  have houtput := net.rowProduct_activatedRow (TopK.size_tokenRow hshape hm) n
  rw [net.output_congr fun k hk => TopK.getD_tokenRow hshape hm hk] at houtput
  simp only [hexpert, hweight]
  rw [← houtput]

/-- A gated network computes what its definition says: every token gets the sum, rounded once, of
the outputs of its experts, and every slot is in one place of the grouping. -/
theorem gated_swiglu {out : Tensor} (h : (gated batch first second w).1 = .ok out)
    {tokens features : Nat} (hshape : batch.hidden.shape = [tokens, features])
    (htokens : 1 ≤ tokens) :
    ∃ (experts half : Nat) (choice : Choice) (r : Routing)
      (t₁ : first.Tiles experts features (2 * half)) (t₂ : second.Tiles experts half features),
      TopK.select batch.gating batch.selection = .ok choice ∧
      route batch tokens experts = .ok r ∧
      (∀ slot < tokens * batch.selection.count,
        r.alignment.sortedIds.count slot = 1 ∧ choice.expert slot < experts) ∧
      out.shape = [tokens, features] ∧
      ∀ m < tokens, ∀ n < features, out.HasEntry (m * features + n)
        (batch.hidden.element.ofSingle (swigluSum batch features choice
          (fun e => ⟨batch.hidden.element, features, half, t₁.weight e, t₂.weight e⟩) m n)) := by
  obtain ⟨s, half, r, hsizes, rfl, rfl, hr, o₁, g₁, scales₁, h₁, o₂, g₂, scales₂, h₂⟩ :=
    exists_accepted_of_gated h hshape htokens
  obtain ⟨_, _, _, _, hcolumns⟩ := (gatedSizes_eq_ok_iff ..).mp hsizes
  rw [gated_eq_ok hsizes hr h₁ h₂, Except.ok.injEq] at h
  subst h
  obtain ⟨tokens, features, experts, columns⟩ := s
  obtain rfl : columns = 2 * half := hcolumns
  refine ⟨experts, half, _, r, h₁.contents.tiles, h₂.contents.tiles,
    (TopK.select_eq_ok_iff hr.gating_shape ..).mpr ⟨hr.count_pos, hr.count_le, htokens, rfl⟩,
    (route_eq_ok_iff ..).mpr hr, ?_, rfl, ?_⟩
  · intro slot hslot
    refine ⟨hr.count_sortedIds hslot, ?_⟩
    rw [← TopK.size_experts_choice batch.gating batch.selection tokens experts] at hslot
    have hbounds := hr.bounds_of_mem_ids (Array.getElem_mem hslot)
    rw [Choice.expert, ← Array.getElem_eq_getD (h := hslot)]
    exact (Int.toNat_lt hbounds.1).mpr hbounds.2
  · intro m hm n hn
    have hentry := Tensor.hasEntry_ofFn batch.hidden.element (fun i =>
      batch.hidden.element.ofSingle (gatedRow batch.hidden.element batch.selection half
        h₁.contents.weight h₂.contents.weight
        (TopK.tokenRow batch.hidden.singles features (i / features))
        (Routed.logits batch experts (i / features)) (i % features))) (lt_volume_pair hm hn)
    simp only [rowMajor_div _ hn, rowMajor_mod _ hn] at hentry
    rw [gatedRow_eq_swigluSum hr hshape hm] at hentry
    exact hentry

/-- In a batch whose last block is padded, the last entry of the last token is the sum that the
network says. -/
theorem gated_swiglu_sampleBatch :
    ∃ out, (gated Pass.sampleBatch (Pass.sampleStack 128) (Pass.sampleStack 64)
        Pass.sampleRoom).1 = .ok out ∧
      ∃ (choice : Choice) (r : Routing) (t₁ : (Pass.sampleStack 128).Tiles 3 64 128)
        (t₂ : (Pass.sampleStack 64).Tiles 3 64 64),
        TopK.select Pass.sampleBatch.gating ⟨2, true⟩ = .ok choice ∧
        route Pass.sampleBatch 2 3 = .ok r ∧ r.alignment.sortedIds.count 3 = 1 ∧
        out.HasEntry 127 (Element.bf16.ofSingle (swigluSum Pass.sampleBatch 64 choice
          (fun e => ⟨.bf16, 64, 64, t₁.weight e, t₂.weight e⟩) 1 63)) := by
  obtain ⟨out, hout⟩ := Pass.exists_run_samplePass
  obtain ⟨experts, half, choice, r, t₁, t₂, hchoice, hroute, hslots, _, hentry⟩ :=
    gated_swiglu hout (rfl : Pass.sampleBatch.hidden.shape = [2, 64]) (by decide)
  have hscales : [3, 2, 128] = [experts, t₁.groups, 2 * half] := t₁.scales_shape
  simp only [List.cons.injEq, and_true] at hscales
  obtain rfl : experts = 3 := hscales.1.symm
  obtain rfl : half = 64 := by omega
  exact ⟨out, hout, choice, r, t₁, t₂, hchoice, hroute, (hslots 3 (by decide)).1,
    hentry 1 (by decide) 63 (by decide)⟩

end Forward

end RoutedExperts
