import RoutedExperts.Proofs.Quantization.Quantizer
import RoutedExperts.Proofs.Quantization.ScaleLayout
import RoutedExperts.Proofs.Quantization.Support
import RoutedExperts.Proofs.Quantization.WeightLayout
import RoutedExperts.Proofs.Segments
import RoutedExperts.Quantization.Experts

/-!
# Packed experts hold what was quantized

A stack of experts is packed one expert after the other, and the scales of all of them are brought
into the stored order together. `Experts.quantize_eq_ok_iff` says which stacks can be packed,
`Experts.Holds` where the packed form keeps the values and scales of one expert, and
`Experts.holds_quantized` that these are the values and scales of the expert's own weights.
-/

namespace RoutedExperts

namespace Experts

section

variable (weights : Tensor) (type : WeightType) (groupSize : Int) (experts rows columns : Nat)

/-- The weights of one expert of a stack. -/
def slice (e : Nat) : Array Float32 :=
  weights.singles.extract (e * (rows * columns)) ((e + 1) * (rows * columns))

/-- The quantized form of one expert of a stack. -/
def quantized (e : Nat) : Quantized :=
  Quantizer.quantizeGroups type (slice weights rows columns e) rows columns
    (Quantizer.groupRows rows groupSize)

/-- The parts of all experts of a stack, one after the other. -/
def gather {α : Type} (part : Quantized → Array α) : Array α :=
  (List.range experts).foldl
    (fun all e => all ++ part (quantized weights type groupSize rows columns e)) #[]

/-- The scales of a stack in the order of the columns. -/
def columnScales : Tensor :=
  .ofSingles .f32
    [experts, if experts = 0 then 1 else rows / Quantizer.groupRows rows groupSize, columns]
    (gather weights type groupSize experts rows columns Quantized.scales)

/-- The packed form of a stack, with its scales in the given order. -/
def assemble (stored : Tensor) : Experts where
  packed := .ofWords (packedShape experts rows columns type)
    (gather weights type groupSize experts rows columns fun q =>
      WeightLayout.packWords type rows columns q.values)
  scales := .ofSingles .f16 stored.shape stored.singles
  reference := .ofSingles .f32 [experts, rows, columns]
    (gather weights type groupSize experts rows columns Quantized.reference)
  type := type
  groupSize := groupSize

end

variable {weights : Tensor} {type : WeightType} {groupSize : Int} {experts rows columns : Nat}

/-- The slice of an expert has the weights of one matrix. -/
theorem size_slice (hshape : weights.shape = [experts, rows, columns]) {e : Nat}
    (he : e < experts) : (slice weights rows columns e).size = rows * columns := by
  have hend : (e + 1) * (rows * columns) ≤ weights.singles.size := by
    rw [Tensor.size_singles, hshape, volume_triple, Nat.mul_assoc]
    exact Nat.mul_le_mul_right _ he
  rw [slice, Array.size_extract, Nat.min_eq_left hend, Nat.succ_mul, Nat.add_sub_cancel_left]

/-- The matrix of every expert of a supported stack can be quantized. -/
theorem quantize_slice (h : Support.Packable type rows columns groupSize)
    (hshape : weights.shape = [experts, rows, columns]) {e : Nat} (he : e < experts) :
    Quantizer.quantize (slice weights rows columns e) rows columns type groupSize =
      .ok (quantized weights type groupSize rows columns e) :=
  (Quantizer.quantize_eq_ok_iff ..).mpr ⟨h.biased, size_slice hshape he, h.groupRows_le,
    h.groupRows_pos, h.mod_groupRows, rfl⟩

/-- The matrix of every expert of a supported stack is quantized and packed. -/
theorem packOne_slice (h : Support.Packable type rows columns groupSize)
    (hshape : weights.shape = [experts, rows, columns]) {e : Nat} (he : e < experts) :
    packOne type groupSize rows columns (slice weights rows columns e) =
      .ok (WeightLayout.packWords type rows columns
        (quantized weights type groupSize rows columns e).values,
        quantized weights type groupSize rows columns e) := by
  have hpack := (WeightLayout.pack_eq_ok_iff
    (quantized weights type groupSize rows columns e).values rows columns type _).mpr
      ⟨WeightLayout.tiled_of_granules h.rows_mod h.columns_mod,
        Quantizer.size_values_quantizeGroups .., rfl⟩
  simp only [packOne, quantize_slice h hshape he, hpack, bind_eq_ok_iff, pure_eq_ok,
    Except.ok.injEq, exists_eq_left']

/-- All experts of a supported stack are quantized and packed, in their order. -/
theorem mapM_packOne (h : Support.Packable type rows columns groupSize)
    (hshape : weights.shape = [experts, rows, columns]) :
    (List.range experts).mapM (fun e => packOne type groupSize rows columns
        (weights.singles.extract (e * (rows * columns)) ((e + 1) * (rows * columns)))) =
      .ok ((List.range experts).map fun e => (WeightLayout.packWords type rows columns
        (quantized weights type groupSize rows columns e).values,
        quantized weights type groupSize rows columns e)) := by
  rw [mapM_eq_ok_iff, List.map_map]
  apply List.map_congr_left
  intro e he
  exact packOne_slice h hshape (List.mem_range.mp he)

-- All experts have the same groups, so the last one's count is the count of the stack.
private theorem scales_packs (words : Nat → Array UInt32) :
    let packs := (List.range experts).map fun e =>
      (words e, quantized weights type groupSize rows columns e)
    let groups := match packs.getLast? with
      | some (_, q) => q.groups
      | none => 1
    Tensor.ofSingles .f32 [experts, groups, columns]
        (packs.foldl (fun all p => all ++ p.2.scales) #[]) =
      columnScales weights type groupSize experts rows columns := by
  simp only [columnScales, gather, List.foldl_map, List.getLast?_map, List.getLast?_range]
  by_cases hempty : experts = 0
  · simp only [hempty, ite_true, Option.map_none]
  · simp only [hempty, ite_false, Option.map_some]
    rfl

/-- A stack is packed exactly when its sizes have a packed format. -/
theorem quantize_eq_ok_iff (hshape : weights.shape = [experts, rows, columns]) (x : Experts) :
    quantize weights type groupSize = .ok x ↔
      Support.Packable type rows columns groupSize ∧ ∃ stored,
        ScaleLayout.permute (columnScales weights type groupSize experts rows columns) rows columns
          groupSize = .ok stored ∧
        assemble weights type groupSize experts rows columns stored = x := by
  simp only [quantize, hshape, error_bind, pure_eq_ok, throw_eq_error, bind_eq_ok_iff,
    refuse_eq_ok_iff, Except.ok.injEq, Bool.not_eq_true', Bool.not_eq_false,
    Support.admits_eq_true_iff]
  constructor
  · rintro ⟨⟨hbiased, hmem⟩, ⟨⟩, hcheck, hsize, packs, hpacks, stored, hstored, rfl⟩
    obtain ⟨hcolumns, hrows, hdivides⟩ := (Support.checkShape_eq_ok_iff ..).mp hcheck
    obtain ⟨hrows', hcolumns'⟩ := Nat.mul_ne_zero_iff.mp hsize
    have h : Support.Packable type rows columns groupSize := ⟨hbiased, hmem, hcolumns, hrows,
      hdivides, Nat.pos_of_ne_zero hrows', Nat.pos_of_ne_zero hcolumns'⟩
    rw [mapM_packOne h hshape, Except.ok.injEq] at hpacks
    subst hpacks
    refine ⟨h, stored, ?_, ?_⟩
    · rw [← scales_packs]
      exact hstored
    · simp only [assemble, gather, List.foldl_map]
  · rintro ⟨h, stored, hstored, rfl⟩
    refine ⟨⟨h.biased, h.groupSize_mem⟩, (),
      (Support.checkShape_eq_ok_iff ..).mpr ⟨h.columns_mod, h.rows_mod, h.divides⟩,
      Nat.mul_ne_zero (Nat.ne_of_gt h.rows_pos) (Nat.ne_of_gt h.columns_pos), _,
      mapM_packOne h hshape, stored, ?_, ?_⟩
    · rw [← scales_packs] at hstored
      exact hstored
    · simp only [assemble, gather, List.foldl_map]

/-- What is packed is a stack of matrices. -/
theorem exists_shape_of_quantize {x : Experts} (hx : quantize weights type groupSize = .ok x) :
    ∃ experts rows columns, weights.shape = [experts, rows, columns] := by
  unfold quantize at hx
  split at hx
  · rename_i hshape
    exact ⟨_, _, _, hshape⟩
  · cases hx

/-- The shapes of a packed stack, also of one without experts. -/
theorem shapes_of_quantize {x : Experts} (hx : quantize weights type groupSize = .ok x)
    (hshape : weights.shape = [experts, rows, columns]) : x.type = type ∧
      x.packed.shape = packedShape experts rows columns type ∧
      ∃ groups, x.scales.shape = [experts, groups, columns] := by
  obtain ⟨_, stored, hstored, rfl⟩ := (quantize_eq_ok_iff hshape x).mp hx
  exact ⟨rfl, rfl, _, ScaleLayout.shape_permute hstored⟩

/-- A supported stack can be quantized. -/
theorem exists_quantize (h : Support.Packable type rows columns groupSize)
    (hshape : weights.shape = [experts, rows, columns]) :
    ∃ x, quantize weights type groupSize = .ok x := by
  have hscales : (columnScales weights type groupSize experts rows columns).shape =
    [experts, if experts = 0 then 1 else rows / Quantizer.groupRows rows groupSize, columns] := rfl
  obtain ⟨stored, hstored⟩ := ScaleLayout.exists_move hscales h.columns_mod
    (ScaleOrder.ofGroupSize rows groupSize) (ScaleOrder.ofGroupSize rows groupSize).source
  exact ⟨_, (quantize_eq_ok_iff hshape _).mpr ⟨h, stored, hstored, rfl⟩⟩

/-- The packed stack has the words of all its matrices. -/
theorem volume_packedShape (h : WeightLayout.Tiled rows columns) (type : WeightType) :
    volume (packedShape experts rows columns type) =
      experts * WeightLayout.packedSize rows columns type := by
  rw [packedShape, volume_triple, Nat.mul_assoc, WeightLayout.packedSize_eq_bands h]

/-- The words of an expert are cut out of the words of the stack. -/
theorem extract_words_assemble (h : WeightLayout.Tiled rows columns) (stored : Tensor) {e : Nat}
    (he : e < experts) :
    (assemble weights type groupSize experts rows columns stored).packed.words.extract
        (e * WeightLayout.packedSize rows columns type)
        ((e + 1) * WeightLayout.packedSize rows columns type) =
      WeightLayout.packWords type rows columns
        (quantized weights type groupSize rows columns e).values := by
  have hsize : ∀ e ∈ List.range experts, (WeightLayout.packWords type rows columns
      (quantized weights type groupSize rows columns e).values).size =
        WeightLayout.packedSize rows columns type :=
    fun _ _ => WeightLayout.size_packWords ..
  have hwords : (gather weights type groupSize experts rows columns fun q =>
      WeightLayout.packWords type rows columns q.values).size =
        volume (packedShape experts rows columns type) := by
    rw [gather, size_foldl_append hsize, List.length_range, volume_packedShape h]
  simp only [assemble]
  rw [Tensor.words_ofWords hwords, gather,
    extract_foldl_append hsize (by rwa [List.length_range]), List.getElem_range]

/-- The stack of scales has a row for each group of each expert. -/
theorem shape_columnScales {e : Nat} (he : e < experts) :
    (columnScales weights type groupSize experts rows columns).shape =
      [experts, (quantized weights type groupSize rows columns e).groups, columns] := by
  have hstack : experts ≠ 0 := Nat.ne_zero_of_lt he
  simp only [columnScales, hstack, ite_false]
  rfl

/-- The scales of an expert stand among those of the stack. -/
theorem lt_volume_columnScales {e i : Nat} (he : e < experts)
    (hi : i < (quantized weights type groupSize rows columns e).groups * columns) :
    e * ((quantized weights type groupSize rows columns e).groups * columns) + i <
      volume (columnScales weights type groupSize experts rows columns).shape := by
  rw [shape_columnScales he, volume_triple, Nat.mul_assoc]
  exact rowMajor_lt he hi

/-- The scales of an expert stand behind those of the experts before it. -/
theorem getD_columnScales {e i : Nat} (he : e < experts)
    (hi : i < (quantized weights type groupSize rows columns e).groups * columns) :
    (columnScales weights type groupSize experts rows columns).singles.getD
        (e * ((quantized weights type groupSize rows columns e).groups * columns) + i) 0 =
      (quantized weights type groupSize rows columns e).scales.getD i 0 := by
  have hsize : ∀ e' ∈ List.range experts,
      (quantized weights type groupSize rows columns e').scales.size =
        (quantized weights type groupSize rows columns e).groups * columns :=
    fun _ _ => Quantizer.size_scales_quantizeGroups ..
  have hpart := getD_foldl_append hsize (by rwa [List.length_range]) hi 0
  rw [List.getElem_range] at hpart
  exact (Tensor.getD_singles_ofSingles .f32 _ (lt_volume_columnScales he hi)).trans hpart

/-- The packed form of a stack holds a quantized matrix as its expert `e`: its values are read from
the expert's words, and its scales from their stored places. -/
structure Holds (x : Experts) (type : WeightType) (groupSize : Int)
    (experts rows columns e : Nat) (q : Quantized) : Prop where
  packable : Support.Packable type rows columns groupSize
  groups_eq : q.groups = rows / Quantizer.groupRows rows groupSize
  packed_element : x.packed.element = .u32
  packed_shape : x.packed.shape = packedShape experts rows columns type
  scales_element : x.scales.element = .f16
  scales_shape : x.scales.shape = [experts, q.groups, columns]
  values_eq : WeightLayout.unpackWords type rows columns
    (x.packed.words.extract (e * WeightLayout.packedSize rows columns type)
      ((e + 1) * WeightLayout.packedSize rows columns type)) = q.values
  scale_eq : ∀ i < q.groups * columns,
    x.scales.singles.getD (ScaleLayout.inRun (ScaleOrder.ofGroupSize rows groupSize).run
      (ScaleOrder.ofGroupSize rows groupSize).target (e * (q.groups * columns) + i)) 0 =
        q.scales.getD i 0

/-- The packed form of a stack holds every expert's quantized form. -/
theorem holds_quantized {x : Experts} (hx : quantize weights type groupSize = .ok x)
    (hshape : weights.shape = [experts, rows, columns]) {e : Nat} (he : e < experts) :
    x.Holds type groupSize experts rows columns e
      (quantized weights type groupSize rows columns e) := by
  obtain ⟨h, stored, hstored, rfl⟩ := (quantize_eq_ok_iff hshape x).mp hx
  have htiled := WeightLayout.tiled_of_granules h.rows_mod h.columns_mod
  refine ⟨h, rfl, rfl, rfl, rfl,
    (ScaleLayout.shape_permute hstored).trans (shape_columnScales he), ?_, ?_⟩
  · rw [extract_words_assemble htiled stored he]
    exact WeightLayout.unpackWords_packWords htiled (Quantizer.size_values_quantizeGroups ..)
      fun i hi => Quantizer.toNat_values_quantizeGroups_lt _ _ _ _ _ hi
  · intro i hi
    have hplace := lt_volume_columnScales he hi
    have hread := Tensor.getD_singles_ofSingles .f16 stored.singles
      (ScaleLayout.stored_lt_volume hstored hplace)
    rw [ScaleLayout.getD_permute hstored hplace, getD_columnScales he hi] at hread
    exact hread.trans (Quantizer.toSingle_ofSingle_scales_quantizeGroups type
      (slice weights rows columns e) rows columns (Quantizer.groupRows rows groupSize) hi)

end Experts

end RoutedExperts
