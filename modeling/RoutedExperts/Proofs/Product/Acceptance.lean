import RoutedExperts.Proofs.Product.InBounds

/-!
# Which calls are accepted

`GroupedCall.Admissible` lists in full what the tensors, the sizes and the workspace of a grouped
product have to be, without reference to the checks. The checks accept exactly these calls
(`Accepted.admissible`, `Admissible.exists_accepted`); every other call is refused for the shape of
an operand or for a setting that is not supported (`reported_prepare`).
-/

namespace RoutedExperts

/-! ### Reported errors -/

/-- A computation that fails only for a shape that does not fit or a setting that is not
supported. -/
structure Reported {α : Type} (x : Except Error α) : Prop where
  kind_eq : ∀ e, x = .error e → e.kind = .shape ∨ e.kind = .unsupported

namespace Reported

variable {α β : Type}

theorem ok (a : α) : Reported (.ok a) := ⟨nofun⟩

/-- An error about a shape or about support is a reported one. -/
theorem error {e : Error} (h : e.kind = .shape ∨ e.kind = .unsupported) :
    Reported (.error e : Except Error α) := by
  constructor
  intro e' he
  cases he
  exact h

/-- Checks behind each other report errors if each of them does. -/
theorem andThen {x : Except Error α} {f : α → Except Error β} (hx : Reported x)
    (hf : ∀ a, Reported (f a)) : Reported (x >>= f) := by
  cases x with
  | error e => exact error (hx.kind_eq e rfl)
  | ok a => exact hf a

/-- A choice reports errors if both branches do. -/
theorem branch {p : Prop} [Decidable p] {x y : Except Error α} (hx : Reported x)
    (hy : Reported y) : Reported (if p then x else y) := by
  by_cases h : p
  · simpa only [h, ite_true] using hx
  · simpa only [h, ite_false] using hy

/-- A check that refuses with a reported error, and goes on otherwise, reports errors. -/
theorem refuse {p : Prop} [Decidable p] {e : Error} {x : Except Error α}
    (he : e.kind = .shape ∨ e.kind = .unsupported) (hx : Reported x) :
    Reported (if p then .error e else x) :=
  branch (error he) hx

/-- What is made of a result does not change the errors. -/
theorem map {x : Except Error α} (hx : Reported x) (f : α → β) : Reported (x.map f) := by
  cases x with
  | error e => exact error (hx.kind_eq e rfl)
  | ok a => exact ok (f a)

/-- A loop reports errors if every step does. -/
theorem foldlM {step : β → α → Except Error β} (hstep : ∀ b a, Reported (step b a)) (l : List α)
    (b : β) : Reported (l.foldlM step b) := by
  induction l generalizing b with
  | nil => exact ok b
  | cons a l ih =>
    rw [List.foldlM_cons]
    exact (hstep b a).andThen ih

end Reported

open Reported

/-- The check of a shape for support reports its errors. -/
theorem Support.reported_checkShape (columns rows : Nat) (groupSize : Int) :
    Reported (checkShape columns rows groupSize) :=
  refuse (.inl rfl) (refuse (.inl rfl) (refuse (.inl rfl) (ok ())))

/-- The check of the shape of a call reports its errors. -/
theorem ProductShape.reported_check (s : ProductShape) : Reported s.check := by
  refine refuse (.inl rfl) (refuse (.inl rfl) (refuse (.inl rfl) ?_))
  exact andThen (branch (ok ()) (error (.inr rfl))) fun _ => Support.reported_checkShape ..

namespace Plan

/-- Reading a tensor of indices reports its errors. -/
theorem reported_readIndices (name : String) (t : Tensor) : Reported (readIndices name t) :=
  refuse (.inl rfl) (refuse (.inr rfl) (ok t.ints))

/-- The check of the offsets reports its errors. -/
theorem reported_checkOffsets (offsets : Array Int) (padded experts block : Nat) :
    Reported (checkOffsets offsets padded experts block) := by
  refine refuse (.inl rfl) (refuse (.inl rfl) (refuse (.inl rfl) ?_))
  cases decrease? offsets with
  | some d => exact error (.inl rfl)
  | none =>
    cases offsets.find? fun o => o.toNat % block ≠ 0 with
    | some o => exact error (.inl rfl)
    | none => exact ok ()

/-- Loading a plan reports its errors. -/
theorem reported_load (sortedIds offsets : Tensor) (padded experts block slots : Nat) :
    Reported (load sortedIds offsets padded experts block slots) := by
  refine andThen (reported_readIndices ..) fun ids => refuse (.inl rfl) ?_
  refine andThen (reported_readIndices ..) fun bounds => ?_
  refine andThen (reported_checkOffsets ..) fun _ => andThen ?_ fun _ => ok _
  rw [normalize, ← Array.foldlM_toList]
  refine andThen (foldlM (fun state id => ?_) ..) fun _ => ok _
  exact branch (refuse (.inl rfl) (ok _)) (ok _)

end Plan

namespace GroupedCall

/-- Inferring the type of the weights reports its errors. -/
theorem reported_inferType (c : GroupedCall) : Reported c.inferType := by
  refine refuse (.inr rfl) ?_
  split
  · refine refuse (.inl rfl) (refuse (.inl rfl) (refuse (.inl rfl) ?_))
    dsimp only
    split
    · exact branch (ok _) (error (.inr rfl))
    · exact error (.inr rfl)
  · exact error (.inl rfl)

/-- Reading the groups off the scales reports its errors. -/
theorem reported_readGroups (c : GroupedCall) (type : WeightType) :
    Reported (c.readGroups type) := by
  unfold readGroups
  split
  · refine refuse (.inl rfl) (refuse (.inr rfl) (andThen ?_ fun _ => ?_))
    · exact refuse (.inl rfl) (branch (ok _) (ok _))
    · exact refuse (.inr rfl) (andThen (Support.reported_checkShape ..) fun _ => ok _)
  · exact error (.inl rfl)

/-- Reading the routing weights reports its errors. -/
theorem reported_readWeights (c : GroupedCall) : Reported c.readWeights := by
  refine branch ?_ (ok none)
  split
  · exact error (.inl rfl)
  · exact refuse (.inl rfl) (ok _)

/-- A call is refused only for a shape that does not fit or a setting that is not supported. -/
theorem reported_prepare (c : GroupedCall) (w : Workspace) : Reported (c.prepare w) := by
  refine andThen c.shape.reported_check fun _ => ?_
  refine andThen (refuse (.inr rfl) (refuse (.inl rfl) (ok ()))) fun _ => ?_
  refine andThen c.reported_inferType fun type => ?_
  refine andThen (c.reported_readGroups type) fun groups => ?_
  refine andThen (Plan.reported_load ..) fun plan => ?_
  refine andThen c.reported_readWeights fun weights => ?_
  exact refuse (.inl rfl) (andThen (refuse (.inl rfl) (ok _)) fun _ => ok _)

/-- A call reports its errors, whatever its workspace is. -/
theorem reported_execute (c : GroupedCall) (w : Workspace) : Reported (c.execute w).1 := by
  have hprepare := reported_prepare c w
  cases h : c.prepare w with
  | error e =>
    rw [h] at hprepare
    simpa only [execute, h] using error (hprepare.kind_eq e rfl)
  | ok o => simpa only [execute, h] using ok _

end GroupedCall

/-! ### The conditions behind the checks -/

/-- Activations are of half, bfloat or single precision. -/
theorem Element.isActivation_iff (e : Element) :
    e.isActivation = true ↔ e = .f16 ∨ e = .bf16 ∨ e = .f32 := by
  cases e <;> simp [isActivation]

/-- Scales are of any floating-point precision. -/
theorem Element.isFloat_iff (e : Element) :
    e.isFloat = true ↔ e = .f16 ∨ e = .bf16 ∨ e = .f32 ∨ e = .f64 := by
  cases e <;> simp [isFloat]

/-- Indices are bytes, words or integers of 64 bits. -/
theorem Element.isIndex_iff (e : Element) :
    e.isIndex = true ↔ e = .u8 ∨ e = .u32 ∨ e = .i64 := by
  cases e <;> simp [isIndex]

/-- The counts of scale groups whose size a packed format has. Row counts that a signed 32-bit
number cannot hold are left out, since the size would wrap around. -/
theorem Support.exists_groupSize_iff {type : WeightType} (hbiased : type.hasZeroPoint = false)
    {rows : Nat} (hpos : 0 < rows) (hrows : rows < twoTo 31) (groups : Nat) :
    (∃ groupSize, groupSizeOfCount rows groups = .ok groupSize ∧
      admits type groupSize false none = true ∧ (0 < groupSize → rows % groupSize.toNat = 0)) ↔
    groups = 1 ∨ groups ∣ rows ∧
      (rows / groups = 32 ∨ rows / groups = 64 ∨ rows / groups = 128) := by
  have hbmod : Int.bmod (rows / groups : Nat) (twoTo 32) = (rows / groups : Nat) := by
    have hlt : rows / groups < twoTo 31 := Nat.lt_of_le_of_lt (Nat.div_le_self rows groups) hrows
    have hhalf : twoTo 32 = 2 * twoTo 31 := rfl
    generalize rows / groups = size at hlt ⊢
    exact Int.bmod_eq_of_le (by omega) (by omega)
  simp only [groupSizeOfCount_eq_ok_iff, admits_eq_true_iff, hbiased, true_and, hbmod, groupSizes,
    List.mem_cons, List.not_mem_nil, or_false]
  constructor
  · rintro ⟨size, ⟨_, hdivides, hsize⟩, hmem, _⟩
    by_cases hone : groups = 1
    · exact Or.inl hone
    · rw [if_neg hone] at hsize
      refine Or.inr ⟨Nat.dvd_of_mod_eq_zero hdivides, ?_⟩
      generalize rows / groups = size' at hsize ⊢
      omega
  · intro h
    by_cases hone : groups = 1
    · subst hone
      exact ⟨-1, ⟨Nat.one_pos, Nat.mod_one rows, rfl⟩, Or.inl rfl, by omega⟩
    · obtain ⟨hdivides, hsize⟩ := h.resolve_left hone
      have hgroups : 0 < groups := Nat.pos_of_dvd_of_pos hdivides hpos
      refine ⟨(rows / groups : Nat), ⟨hgroups, Nat.mod_eq_zero_of_dvd hdivides, if_neg hone⟩,
        by omega, fun _ => ?_⟩
      rw [Int.toNat_natCast]
      exact Nat.mod_eq_zero_of_dvd (Nat.div_dvd_of_dvd hdivides)

namespace Plan

/-- A vector of so many indices is told by its element and its shape. -/
theorem isIndexVector_iff (t : Tensor) (count : Nat) :
    IsIndexVector t ∧ t.ints.size = count ↔ t.element.isIndex = true ∧ t.shape = [count] := by
  rw [Tensor.size_ints]
  constructor
  · rintro ⟨⟨hrank, hindex⟩, hsize⟩
    obtain ⟨n, hshape⟩ := List.length_eq_one_iff.mp hrank
    have hcount : n = count := by simpa [hshape, volume] using hsize
    exact ⟨hindex, by rw [hshape, hcount]⟩
  · rintro ⟨hindex, hshape⟩
    exact ⟨⟨by rw [hshape]; rfl, hindex⟩, by simp [hshape, volume]⟩

/-- Cuts into whole blocks, said of the offsets that are there. -/
theorem cuts_iff (offsets : Array Int) (padded experts block : Nat) :
    Cuts offsets padded experts block ↔ offsets.size = experts + 1 ∧ offsets[0]? = some 0 ∧
      (∀ (e : Nat) (before after : Int), offsets[e]? = some before →
        offsets[e + 1]? = some after → before ≤ after) ∧
      offsets[experts]? = some (padded : Int) ∧ ∀ offset ∈ offsets, (block : Int) ∣ offset := by
  have hget : ∀ {e : Nat} {offset : Int}, offsets[e]? = some offset →
      offsets.getD e 0 = offset := by
    intro e offset h
    rw [Array.getD_eq_getD_getElem?, h, Option.getD_some]
  constructor
  · intro h
    have hsize := h.size_eq
    have hfirst : 0 < offsets.size := by omega
    have hlast : experts < offsets.size := by omega
    refine ⟨hsize, ?_, ?_, ?_, ?_⟩
    · rw [getElem?_eq_some_getD hfirst 0, h.first]
    · intro e before after hbefore hafter
      have he : e + 1 < offsets.size := (Array.getElem?_eq_some_iff.mp hafter).1
      have hstep := h.step e (by omega)
      rwa [hget hbefore, hget hafter] at hstep
    · rw [getElem?_eq_some_getD hlast 0, h.last]
    · intro offset hmem
      obtain ⟨e, he⟩ := Array.mem_iff_getElem?.mp hmem
      have hbound : e < offsets.size := (Array.getElem?_eq_some_iff.mp he).1
      have hnonneg := h.nonneg (e := e) (by omega)
      rw [hget he] at hnonneg
      rw [← Int.toNat_of_nonneg hnonneg]
      exact Int.natCast_dvd_natCast.mpr (Nat.dvd_of_mod_eq_zero (h.whole offset hmem))
  · rintro ⟨hsize, hfirst, hmono, hlast, hwhole⟩
    refine ⟨hsize, hget hfirst, hget hlast, ?_, ?_⟩
    · intro e he
      have hbefore : e < offsets.size := by omega
      have hafter : e + 1 < offsets.size := by omega
      exact hmono e _ _ (getElem?_eq_some_getD hbefore 0) (getElem?_eq_some_getD hafter 0)
    · intro offset hmem
      rcases Int.le_total 0 offset with hnonneg | hneg
      · have hdivides := hwhole offset hmem
        rw [← Int.toNat_of_nonneg hnonneg] at hdivides
        exact Nat.mod_eq_zero_of_dvd (Int.natCast_dvd_natCast.mp hdivides)
      · rw [Int.toNat_of_nonpos hneg, Nat.zero_mod]

end Plan

namespace GroupedCall

/-! ### Admissible calls -/

/-- The tensors, the sizes and the workspace that a product can be called with. -/
structure Admissible (c : GroupedCall) (w : Workspace) : Prop where
  sizes : 1 ≤ c.shape.tokens ∧ 1 ≤ c.shape.columns ∧ 1 ≤ c.shape.rows ∧ 1 ≤ c.shape.experts ∧
    1 ≤ c.shape.chosen
  block : c.shape.block = 16 ∨ c.shape.block = 32 ∨ c.shape.block = 48 ∨ c.shape.block = 64
  columns : 64 ∣ c.shape.columns
  rows : 64 ∣ c.shape.rows
  activations_element : c.activations.element = .f16 ∨ c.activations.element = .bf16 ∨
    c.activations.element = .f32
  activations_shape : c.activations.shape =
    [if c.shape.replicated then c.shape.tokens else c.shape.tokens * c.shape.chosen, c.shape.rows]
  packed_element : c.packed.element = .u32
  packed_shape : c.packed.shape = [c.shape.experts, c.shape.rows / 16, 2 * c.shape.columns] ∨
    c.packed.shape = [c.shape.experts, c.shape.rows / 16, 4 * c.shape.columns]
  scales_element : c.scales.element = .f16 ∨ c.scales.element = .bf16 ∨ c.scales.element = .f32 ∨
    c.scales.element = .f64
  /-- One group per column, or equal groups of a supported size. -/
  scales_shape : ∃ groups, c.scales.shape = [c.shape.experts, groups, c.shape.columns] ∧
    (groups = 1 ∨ groups ∣ c.shape.rows ∧ (c.shape.rows / groups = 32 ∨
      c.shape.rows / groups = 64 ∨ c.shape.rows / groups = 128))
  ids_element : c.sortedIds.element = .u8 ∨ c.sortedIds.element = .u32 ∨ c.sortedIds.element = .i64
  ids_shape : c.sortedIds.shape = [c.shape.padded]
  /-- No slot is named at two places. -/
  ids_once : ∀ slot < c.shape.tokens * c.shape.chosen, ∀ p q : Nat,
    c.sortedIds.ints[p]? = some (slot : Int) → c.sortedIds.ints[q]? = some (slot : Int) → p = q
  offsets_element : c.offsets.element = .u8 ∨ c.offsets.element = .u32 ∨ c.offsets.element = .i64
  offsets_shape : c.offsets.shape = [c.shape.experts + 1]
  offsets_first : c.offsets.ints[0]? = some 0
  offsets_mono : ∀ (e : Nat) (before after : Int), c.offsets.ints[e]? = some before →
    c.offsets.ints[e + 1]? = some after → before ≤ after
  offsets_last : c.offsets.ints[c.shape.experts]? = some (c.shape.padded : Int)
  offsets_whole : ∀ offset ∈ c.offsets.ints, (c.shape.block : Int) ∣ offset
  weights_shape : c.shape.weighted = true →
    ∃ weights, c.weights = some weights ∧ weights.shape = [c.shape.tokens, c.shape.chosen]
  room : c.shape.rows * c.shape.columns + c.shape.block * (c.shape.rows + c.shape.columns) ≤ w.size

variable {c : GroupedCall} {w : Workspace}

/-- Packed words have a type exactly if they are words in the shape of four bits or of eight. -/
theorem exists_holdsType_iff : (∃ type, c.HoldsType type) ↔ c.packed.element = .u32 ∧
      (c.packed.shape = [c.shape.experts, c.shape.rows / 16, 2 * c.shape.columns] ∨
        c.packed.shape = [c.shape.experts, c.shape.rows / 16, 4 * c.shape.columns]) := by
  have hfour : Experts.packedShape c.shape.experts c.shape.rows c.shape.columns .uint4b8 =
      [c.shape.experts, c.shape.rows / 16, 2 * c.shape.columns] := by
    have hwords : c.shape.columns * 16 / 8 = 2 * c.shape.columns := by omega
    rw [← hwords]
    rfl
  have height : Experts.packedShape c.shape.experts c.shape.rows c.shape.columns .uint8b128 =
      [c.shape.experts, c.shape.rows / 16, 4 * c.shape.columns] := by
    have hwords : c.shape.columns * 16 / 4 = 4 * c.shape.columns := by omega
    rw [← hwords]
    rfl
  rw [← hfour, ← height]
  constructor
  · rintro ⟨type, h⟩
    refine ⟨h.element_eq, ?_⟩
    cases type with
    | uint4b8 => exact Or.inl h.shape_eq
    | uint8b128 => exact Or.inr h.shape_eq
    | uint4 => cases h.biased
    | uint8 => cases h.biased
  · rintro ⟨helement, hshape | hshape⟩
    · exact ⟨.uint4b8, rfl, helement, hshape⟩
    · exact ⟨.uint8b128, rfl, helement, hshape⟩

/-- Scales have groups exactly if they are floating-point numbers with one row, or with rows for
groups of 32, 64 or 128. -/
theorem exists_holdsGroups_iff {type : WeightType} (hbiased : type.hasZeroPoint = false)
    (hpos : 0 < c.shape.rows) (hrows : c.shape.rows < twoTo 31) :
    (∃ groups groupSize, c.HoldsGroups type groups groupSize) ↔ c.scales.element.isFloat = true ∧
      ∃ groups, c.scales.shape = [c.shape.experts, groups, c.shape.columns] ∧
        (groups = 1 ∨ groups ∣ c.shape.rows ∧ (c.shape.rows / groups = 32 ∨
          c.shape.rows / groups = 64 ∨ c.shape.rows / groups = 128)) := by
  simp only [← Support.exists_groupSize_iff hbiased hpos hrows]
  constructor
  · rintro ⟨groups, groupSize, h⟩
    exact ⟨h.float, groups, h.shape_eq, groupSize, h.size_eq, h.admitted, h.divides⟩
  · rintro ⟨hfloat, groups, hshape, groupSize, hsize, hadmits, hdivides⟩
    exact ⟨groups, groupSize, hshape, hfloat, hsize, hadmits, hdivides⟩

/-- An accepted call is admissible. -/
theorem Accepted.admissible {o : Operands} {groupSize : Int} {scales : Tensor}
    (h : c.Accepted w o groupSize scales) (hrows : c.shape.rows < twoTo 31) : c.Admissible w := by
  have hs := h.sound
  obtain ⟨hpacked, hwords⟩ := exists_holdsType_iff.mp ⟨_, h.holdsType⟩
  obtain ⟨hfloat, hgroups⟩ := (exists_holdsGroups_iff h.holdsType.biased hs.rows_pos hrows).mp
    ⟨_, _, h.holdsGroups⟩
  obtain ⟨hids, hcount⟩ := (Plan.isIndexVector_iff ..).mp
    ⟨h.routing.ids_vector, h.routing.ids_size⟩
  obtain ⟨hoffsets, hbounds⟩ := (Plan.isIndexVector_iff ..).mp
    ⟨h.routing.offsets_vector, h.routing.cuts.size_eq⟩
  obtain ⟨_, hfirst, hmono, hlast, hwhole⟩ := (Plan.cuts_iff ..).mp h.routing.cuts
  exact {
    sizes := ⟨hs.tokens_pos, hs.columns_pos, hs.rows_pos, hs.experts_pos, hs.chosen_pos⟩
    block := (Block.mem_sizes_iff _).mp hs.block_mem
    columns := Nat.dvd_of_mod_eq_zero hs.columns_mod
    rows := Nat.dvd_of_mod_eq_zero hs.rows_mod
    activations_element := (Element.isActivation_iff _).mp h.holdsActivations.activation
    activations_shape := h.holdsActivations.shape_eq
    packed_element := hpacked
    packed_shape := hwords
    scales_element := (Element.isFloat_iff _).mp hfloat
    scales_shape := hgroups
    ids_element := (Element.isIndex_iff _).mp hids
    ids_shape := hcount
    ids_once := (Plan.nodup_iff ..).mp h.routing.nodup
    offsets_element := (Element.isIndex_iff _).mp hoffsets
    offsets_shape := hbounds
    offsets_first := hfirst
    offsets_mono := hmono
    offsets_last := hlast
    offsets_whole := hwhole
    weights_shape := by
      intro hweighted
      obtain ⟨weights, hweights, hshape, _⟩ := h.holdsWeights.some_of_weighted hweighted
      exact ⟨weights, hweights, hshape⟩
    room := h.room }

/-- An admissible call passes every check. -/
theorem Admissible.exists_accepted (h : c.Admissible w) (hrows : c.shape.rows < twoTo 31) :
    ∃ o groupSize scales, c.Accepted w o groupSize scales := by
  obtain ⟨htokens, hcolumns, hpos, hexperts, hchosen⟩ := h.sizes
  have hsound : c.shape.Sound :=
    ⟨htokens, hcolumns, hpos, hexperts, hchosen, (Block.mem_sizes_iff _).mpr h.block,
      Nat.mod_eq_zero_of_dvd h.columns, Nat.mod_eq_zero_of_dvd h.rows⟩
  obtain ⟨type, htype⟩ := exists_holdsType_iff.mpr ⟨h.packed_element, h.packed_shape⟩
  obtain ⟨groups, groupSize, hgroups⟩ := (exists_holdsGroups_iff htype.biased hpos hrows).mpr
    ⟨(Element.isFloat_iff _).mpr h.scales_element, h.scales_shape⟩
  obtain ⟨hids, hcount⟩ := (Plan.isIndexVector_iff ..).mpr
    ⟨(Element.isIndex_iff _).mpr h.ids_element, h.ids_shape⟩
  obtain ⟨hoffsets, hsize⟩ := (Plan.isIndexVector_iff ..).mpr
    ⟨(Element.isIndex_iff _).mpr h.offsets_element, h.offsets_shape⟩
  have hcuts := (Plan.cuts_iff ..).mpr
    ⟨hsize, h.offsets_first, h.offsets_mono, h.offsets_last, h.offsets_whole⟩
  have hactivations : c.HoldsActivations :=
    ⟨(Element.isActivation_iff _).mpr h.activations_element, h.activations_shape⟩
  obtain ⟨weights, hweights⟩ := exists_holdsWeights_of_shape h.weights_shape
  obtain ⟨scales, hscales⟩ := ScaleLayout.exists_move hgroups.shape_eq hsound.columns_mod
    (ScaleOrder.ofGroupSize c.shape.rows groupSize)
    (ScaleOrder.ofGroupSize c.shape.rows groupSize).target
  obtain ⟨o, ho⟩ := GroupedCall.exists_accepted hsound hactivations htype hgroups
    ⟨hids, hoffsets, hcount, hcuts, (Plan.nodup_iff ..).mpr h.ids_once⟩ hweights h.room hscales
  exact ⟨o, groupSize, scales, ho⟩

/-- A call has results exactly when it is admissible; otherwise it is refused with a shape that does
not fit or a setting that is not supported. In no case is an array accessed out of range. -/
theorem products_ok_iff_admissible (c : GroupedCall) (w : Workspace)
    (hrows : c.shape.rows < twoTo 31) :
    ((∃ out, (c.products w).1 = .ok out) ↔ c.Admissible w) ∧
      ((∃ out, (c.slotProducts w).1 = .ok out) ↔ c.Admissible w) ∧
      Reported (c.products w).1 ∧ Reported (c.slotProducts w).1 ∧
      c.productsChecked w = some (c.products w) ∧
      c.slotProductsChecked w = some (c.slotProducts w) := by
  refine ⟨⟨?_, ?_⟩, ⟨?_, ?_⟩, (reported_execute c w).map _, (reported_execute c w).map _,
    productsChecked_eq_some c w, slotProductsChecked_eq_some c w⟩
  · rintro ⟨out, hout⟩
    obtain ⟨o, groupSize, scales, h⟩ := exists_accepted_of_execute hout
    exact h.admissible hrows
  · intro h
    obtain ⟨o, groupSize, scales, h⟩ := h.exists_accepted hrows
    exact ⟨_, h.products_eq⟩
  · rintro ⟨out, hout⟩
    obtain ⟨o, groupSize, scales, h⟩ := exists_accepted_of_execute hout
    exact h.admissible hrows
  · intro h
    obtain ⟨o, groupSize, scales, h⟩ := h.exists_accepted hrows
    exact ⟨_, h.slotProducts_eq⟩

/-- The same call is refused when the workspace lacks a single element. -/
theorem products_ok_iff_admissible_tightCall :
    tightCall.shape.rows < twoTo 31 ∧ tightCall.Admissible (.forShape 64 64 16) ∧
      (∃ out, (tightCall.products (.forShape 64 64 16)).1 = .ok out) ∧
      ¬ ∃ out, (tightCall.products (.ofSize 6143)).1 = .ok out := by
  have hrows : tightCall.shape.rows < twoTo 31 := by decide
  obtain ⟨o, groupSize, scales, h⟩ := exists_accepted_tightCall
  have hadmissible := h.admissible hrows
  refine ⟨hrows, hadmissible, (products_ok_iff_admissible _ _ hrows).1.mpr hadmissible, ?_⟩
  rw [(products_ok_iff_admissible _ _ hrows).1]
  intro hsmall
  have hroom := hsmall.room
  rw [Workspace.size, Workspace.ofSize, Array.size_replicate] at hroom
  exact absurd hroom (by decide)

end GroupedCall

end RoutedExperts
