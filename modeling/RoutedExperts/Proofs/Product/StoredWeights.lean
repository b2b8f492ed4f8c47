import RoutedExperts.Proofs.Product.PerSlot
import RoutedExperts.Proofs.Quantization.RoundTrip

/-!
# Products multiply by the quantized weights

A call is handed packed words and stored scales and nothing else, so it has to find out the weight
type, the groups and the stored order by itself. It finds those that the weights were packed with
(`GroupedCall.recognizes_of_holds`), and the weights that the engine then multiplies by are the
quantized ones (`GroupedCall.Accepted.weight_eq_of_holds`). Staging them element by element or word
by word makes no difference (`GroupedCall.Accepted.stageTile_eq_foldValues`).
-/

namespace RoutedExperts

namespace GroupedCall

/-- The checks of a call find a weight type, a count of groups and an order of stored scales. -/
structure Recognizes (c : GroupedCall) (type : WeightType) (groups : Nat) (order : ScaleOrder) :
    Prop where
  inferType_eq : c.inferType = .ok type
  readGroups_eq : ∃ groupSize scales, c.readGroups type = .ok (groups, groupSize) ∧
    ScaleOrder.ofGroupSize c.shape.rows groupSize = order ∧
      ScaleLayout.unpermute c.scales c.shape.rows c.shape.columns groupSize = .ok scales

variable {c : GroupedCall} {x : Experts} {type : WeightType} {groupSize : Int} {e : Nat}
  {q : Quantized}

/-! ### What the checks find -/

section

variable (h : x.Holds type groupSize c.shape.experts c.shape.rows c.shape.columns e q)

include h

/-- A call on packed experts has their type. -/
theorem holdsType_of_holds (hpacked : c.packed = x.packed) : c.HoldsType type := by
  constructor
  · exact h.packable.biased
  · rw [hpacked, h.packed_element]
  · rw [hpacked, h.packed_shape]

/-- A call on packed experts has their groups, with the group size that the count implies. -/
theorem holdsGroups_of_holds (hscales : c.scales = x.scales) :
    c.HoldsGroups type q.groups (Support.impliedSize c.shape.rows groupSize) := by
  constructor
  · rw [hscales, h.scales_shape]
  · rw [hscales, h.scales_element]
    rfl
  · rw [h.groups_eq]
    exact h.packable.groupSizeOfCount_eq
  · exact h.packable.admits_impliedSize
  · exact h.packable.divides_impliedSize

/-- The stored scales of packed experts can be put back into the order of columns. -/
theorem exists_unpermute_of_holds (hscales : c.scales = x.scales) :
    ∃ scales, ScaleLayout.unpermute c.scales c.shape.rows c.shape.columns
      (Support.impliedSize c.shape.rows groupSize) = .ok scales :=
  ScaleLayout.exists_move (holdsGroups_of_holds h hscales).shape_eq h.packable.columns_mod _ _

/-- A call with the words and scales of packed experts is accepted when everything else about it
is. -/
theorem exists_accepted_of_holds (hpacked : c.packed = x.packed) (hscales : c.scales = x.scales)
    (htokens : 0 < c.shape.tokens) (hexperts : 0 < c.shape.experts) (hchosen : 0 < c.shape.chosen)
    (hblock : c.shape.block ∈ Block.sizes) (hactivations : c.HoldsActivations)
    (hrouting : Plan.Valid c.sortedIds c.offsets c.shape.padded c.shape.experts c.shape.block
      c.shape.slots) {weights : Option (Array Float32)} (hweights : c.HoldsWeights weights)
    {w : Workspace}
    (hroom : Workspace.required c.shape.columns c.shape.rows c.shape.block ≤ w.size) :
    ∃ o size scales, c.Accepted w o size scales := by
  have hsound : c.shape.Sound := ⟨htokens, h.packable.columns_pos, h.packable.rows_pos, hexperts,
    hchosen, hblock, h.packable.columns_mod, h.packable.rows_mod⟩
  obtain ⟨scales, hunpermute⟩ := exists_unpermute_of_holds h hscales
  obtain ⟨o, ho⟩ := exists_accepted hsound hactivations (holdsType_of_holds h hpacked)
    (holdsGroups_of_holds h hscales) hrouting hweights hroom hunpermute
  exact ⟨o, _, scales, ho⟩

/-- A call recognizes how the weights were packed. -/
theorem recognizes_of_holds (hs : c.shape.Sound) (hpacked : c.packed = x.packed)
    (hscales : c.scales = x.scales) :
    c.Recognizes type q.groups (ScaleOrder.ofGroupSize c.shape.rows groupSize) := by
  obtain ⟨scales, hunpermute⟩ := exists_unpermute_of_holds h hscales
  exact ⟨(inferType_eq_ok_iff hs type).mpr (holdsType_of_holds h hpacked), _, scales,
    (readGroups_eq_ok_iff hs ..).mpr (holdsGroups_of_holds h hscales),
    Support.ofGroupSize_impliedSize .., hunpermute⟩

end

/-! ### What the engine multiplies by -/

namespace Accepted

variable {w : Workspace} {o : Operands} {size : Int} {scales : Tensor}

/-- A call is accepted only with the sizes that the weights were packed with. -/
theorem sizes_eq_of_holds (ha : c.Accepted w o size scales) {experts rows columns : Nat}
    (h : x.Holds type groupSize experts rows columns e q) (hpacked : c.packed = x.packed)
    (hscales : c.scales = x.scales) :
    c.shape.experts = experts ∧ c.shape.rows = rows ∧ c.shape.columns = columns := by
  have hwords := ha.holdsType.shape_eq
  have hgroups := ha.holdsGroups.shape_eq
  have hrows := ha.sound.rows_mod
  have hrows' := h.packable.rows_mod
  rw [hpacked, h.packed_shape] at hwords
  rw [hscales, h.scales_shape] at hgroups
  simp only [Experts.packedShape, WeightLayout.tile, List.cons.injEq, and_true] at hwords hgroups
  omega

variable (ha : c.Accepted w o size scales)
  (h : x.Holds type groupSize c.shape.experts c.shape.rows c.shape.columns e q)

include ha h

/-- The engine multiplies by weights of the type that was packed. -/
theorem type_eq_of_holds (hpacked : c.packed = x.packed) : o.type = type := by
  have hread := (inferType_eq_ok_iff ha.sound o.type).mpr ha.holdsType
  rw [(inferType_eq_ok_iff ha.sound type).mpr (holdsType_of_holds h hpacked)] at hread
  exact (Except.ok.inj hread).symm

/-- The engine multiplies by scales of the groups that were quantized. -/
theorem groups_eq_of_holds (hscales : c.scales = x.scales) : o.groups = q.groups := by
  have hshape := ha.holdsGroups.shape_eq
  rw [hscales, h.scales_shape] at hshape
  simp only [List.cons.injEq, true_and, and_true] at hshape
  exact hshape.symm

/-- The group size found by the checks is the implied one. -/
theorem size_eq_of_holds (hscales : c.scales = x.scales) :
    size = Support.impliedSize c.shape.rows groupSize := by
  have hread := ha.holdsGroups.size_eq
  rw [ha.groups_eq_of_holds h hscales, (holdsGroups_of_holds h hscales).size_eq] at hread
  exact (Except.ok.inj hread).symm

/-- The engine unpacks the values that were packed. -/
theorem expertValues_eq_of_holds (hpacked : c.packed = x.packed) :
    Engine.expertValues c.shape o e = q.values := by
  simp only [Engine.expertValues, ha.words_eq, hpacked, ha.type_eq_of_holds h hpacked, h.values_eq]

/-- The engine reads the scales of an expert in the order of the columns. -/
theorem scale_eq_of_holds (hscales : c.scales = x.scales) (he : e < c.shape.experts) {g n : Nat}
    (hg : g < q.groups) (hn : n < c.shape.columns) :
    o.scales.getD ((e * q.groups + g) * c.shape.columns + n) 0 =
      q.scales.getD (g * c.shape.columns + n) 0 := by
  have hplace : (e * q.groups + g) * c.shape.columns + n < volume c.scales.shape := by
    rw [hscales, h.scales_shape]
    exact lt_volume_triple he hg hn
  have hindex : (e * q.groups + g) * c.shape.columns + n =
      e * (q.groups * c.shape.columns) + (g * c.shape.columns + n) := by
    rw [Nat.add_mul, Nat.mul_assoc, Nat.add_assoc]
  rw [ha.scales_eq, ScaleLayout.getD_unpermute ha.unpermute_eq hplace,
    ha.size_eq_of_holds h hscales, Support.ofGroupSize_impliedSize, hscales, hindex,
    h.scale_eq _ (rowMajor_lt hg hn)]

/-- The weights that the engine multiplies by are the quantized ones. -/
theorem weight_eq_of_holds (hpacked : c.packed = x.packed) (hscales : c.scales = x.scales)
    (he : e < c.shape.experts) {k n : Nat} (hk : k < c.shape.rows) (hn : n < c.shape.columns) :
    Engine.weight c.shape o e k n = dequantize type (q.values.getD (k * c.shape.columns + n) 0)
      (q.scales.getD (k / (c.shape.rows / q.groups) * c.shape.columns + n) 0) := by
  have hgroup := (holdsGroups_of_holds h hscales).group_lt hk
  simp only [Engine.weight, Engine.tileEntry, rowMajor_div k hn, rowMajor_mod k hn,
    ha.expertValues_eq_of_holds h hpacked, ha.type_eq_of_holds h hpacked,
    ha.groups_eq_of_holds h hscales, ha.scale_eq_of_holds h hscales he hgroup hn]

end Accepted

/-- Staging an expert is a loop over its packed words, which writes each value at its element,
without the bias and times the scale of its group. -/
theorem Accepted.stageTile_eq_foldValues {w : Workspace} {o : Operands} {size : Int}
    {scales : Tensor} (ha : c.Accepted w o size scales) (he : e < c.shape.experts)
    (scratch : Array Float32) :
    Engine.stageTile c.shape o e scratch =
      WeightLayout.foldValues o.type c.shape.columns (c.expertWords o.type e) (fun out i q =>
        let group := i / c.shape.columns / (c.shape.rows / o.groups)
        out.setIfInBounds i (Single.ofInt (q.toNat - o.type.bias) * scales.singles.getD
          ((e * o.groups + group) * c.shape.columns + i % c.shape.columns) 0)) scratch := by
  apply Array.ext_getElem?
  intro i
  rw [Engine.stageTile, Engine.getElem?_write,
    WeightLayout.getElem?_foldValues ha.sound.tiled (ha.holdsType.size_expertWords ha.sound he)
      fun i q => Single.ofInt (q.toNat - o.type.bias) * scales.singles.getD
        ((e * o.groups + i / c.shape.columns / (c.shape.rows / o.groups)) * c.shape.columns +
          i % c.shape.columns) 0]
  simp only [Nat.zero_le, true_and, Nat.zero_add, Nat.sub_zero, Engine.tileEntry, dequantize,
    Engine.expertValues, expertWords, ha.words_eq, ha.scales_eq]

/-- What the quantizer stored is what the engine multiplies by. -/
theorem stageTile_quantize {weights : Tensor} {experts rows columns : Nat}
    (hx : Experts.quantize weights type groupSize = .ok x)
    (hshape : weights.shape = [experts, rows, columns]) (he : e < experts)
    (hpacked : c.packed = x.packed) (hscales : c.scales = x.scales) :
    ∃ q, Quantizer.quantize (Experts.slice weights rows columns e) rows columns type groupSize =
        .ok q ∧
      (c.shape.Sound → c.shape.experts = experts → c.shape.rows = rows →
        c.shape.columns = columns →
          c.Recognizes type q.groups (ScaleOrder.ofGroupSize rows groupSize)) ∧
      ∀ w o, c.prepare w = .ok o → o.type = type ∧ o.groups = q.groups ∧
        ∀ scratch : Array Float32, scratch.size = w.size → ∀ k < rows, ∀ n < columns,
          (Engine.stageTile c.shape o e scratch).getD (k * columns + n) 0 =
            Single.ofInt ((q.values.getD (k * columns + n) 0).toNat - type.bias) *
              q.scales.getD (k / (rows / q.groups) * columns + n) 0 := by
  have h := Experts.holds_quantized hx hshape he
  refine ⟨_, Experts.quantize_slice h.packable hshape he, ?_, ?_⟩
  · rintro hs rfl rfl rfl
    exact recognizes_of_holds h hs hpacked hscales
  · intro w o hprepare
    obtain ⟨size, scales, ha⟩ := (prepare_eq_ok_iff c w o).mp hprepare
    obtain ⟨rfl, rfl, rfl⟩ := ha.sizes_eq_of_holds h hpacked hscales
    refine ⟨ha.type_eq_of_holds h hpacked, ha.groups_eq_of_holds h hscales, ?_⟩
    intro scratch hscratch k hk n hn
    have hsized : Engine.Sized c.shape
        ⟨scratch, Array.replicate (c.shape.slots * c.shape.columns) 0⟩ :=
      ⟨ha.room.trans_eq hscratch.symm, Array.size_replicate⟩
    exact ((hsized.stageTile e).staged k hk n hn).trans
      (ha.weight_eq_of_holds h hpacked hscales he hk hn)

/-- Three experts of 64 rows with divisions by zero among their weights. -/
def sampleWeights : Tensor :=
  .ofFn .f32 [3, 64, 64] fun i => Single.ofInt i / Single.ofInt (i % 5 : Nat)

/-- The sample call with the words and scales of a packed stack. -/
def stackCall (x : Experts) : GroupedCall :=
  { tightCall with packed := x.packed, scales := x.scales }

/-- A call on a stack of packed experts passes all its checks. -/
theorem exists_prepare_stackCall (h : x.Holds type groupSize 3 64 64 e q) :
    ∃ o, (stackCall x).prepare (.forShape 64 64 16) = .ok o := by
  obtain ⟨_, _, _, ha⟩ := exists_accepted_tightCall
  have hactivations : (stackCall x).HoldsActivations :=
    ⟨ha.holdsActivations.activation, ha.holdsActivations.shape_eq⟩
  have hweights : (stackCall x).HoldsWeights _ :=
    ⟨ha.holdsWeights.some_of_weighted, ha.holdsWeights.none_of_not_weighted⟩
  have hs := ha.sound
  obtain ⟨o, size, scales, ho⟩ := exists_accepted_of_holds (c := stackCall x) h rfl rfl
    hs.tokens_pos hs.experts_pos hs.chosen_pos hs.block_mem hactivations ha.routing hweights ha.room
  exact ⟨o, (prepare_eq_ok_iff ..).mpr ⟨size, scales, ho⟩⟩

-- The group of all 64 rows is the size that the count of groups does not show.
/-- The last of three sample experts, in eight bits and one group, is staged as its dequantized
matrix. -/
theorem stageTile_quantize_sampleWeights :
    ∃ x, Experts.quantize sampleWeights .uint8b128 64 = .ok x ∧
      ∃ o, (stackCall x).prepare (.forShape 64 64 16) = .ok o ∧
        ∃ q, Quantizer.quantize (Experts.slice sampleWeights 64 64 2) 64 64 .uint8b128 64 = .ok q ∧
          (stackCall x).Recognizes .uint8b128 q.groups .perColumn ∧
          o.type = .uint8b128 ∧ o.groups = q.groups ∧ ∀ k < 64, ∀ n < 64,
            (Engine.stageTile (stackCall x).shape o 2 (Workspace.forShape 64 64 16).buffer).getD
                (k * 64 + n) 0 =
              Single.ofInt ((q.values.getD (k * 64 + n) 0).toNat - 128) *
                q.scales.getD (k / (64 / q.groups) * 64 + n) 0 := by
  have hpackable : Support.Packable .uint8b128 64 64 64 :=
    ⟨rfl, by decide, rfl, rfl, fun _ => rfl, by decide, by decide⟩
  obtain ⟨x, hx⟩ := Experts.exists_quantize hpackable (rfl : sampleWeights.shape = [3, 64, 64])
  have he : 2 < 3 := by decide
  obtain ⟨o, ho⟩ := exists_prepare_stackCall (Experts.holds_quantized hx rfl he)
  obtain ⟨_, _, _, ha⟩ := exists_accepted_tightCall
  obtain ⟨q, hq, hrecognizes, hstaged⟩ :=
    stageTile_quantize (c := stackCall x) hx rfl he rfl rfl
  obtain ⟨htype, hgroups, hentry⟩ := hstaged _ o ho
  exact ⟨x, hx, o, ho, q, hq, hrecognizes ha.sound rfl rfl rfl, htype, hgroups, hentry _ rfl⟩

end GroupedCall

end RoutedExperts
