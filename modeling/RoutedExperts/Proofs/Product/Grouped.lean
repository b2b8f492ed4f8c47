import RoutedExperts.Product.Grouped
import RoutedExperts.Proofs.Quantization.Support
import RoutedExperts.Proofs.Quantization.WeightLayout
import RoutedExperts.Proofs.Routing.Plan
import RoutedExperts.Quantization.Experts

/-!
# Accepted calls

What it means that a grouped call is accepted, check by check: the sizes (`ProductShape.Sound`),
the weight type that the shape of the packed words implies, the scale groups, the routing and the
workspace. `GroupedCall.Accepted` collects the outcome of all checks, and
`GroupedCall.prepare_eq_ok_iff` says that the operands of a product are read exactly then.
-/

namespace RoutedExperts

/-! ### Sizes -/

/-- The check accepts exactly the listed block sizes. -/
theorem Block.check_eq_ok_iff (size : Nat) : Block.check size = .ok () ↔ size ∈ Block.sizes := by
  by_cases h : size ∈ Block.sizes
  · simp only [check, List.contains_iff_mem, h, ite_true]
  · simp only [check, List.contains_iff_mem, h, ite_false, reduceCtorEq]

/-- Blocks have 16, 32, 48 or 64 places. -/
theorem Block.mem_sizes_iff (size : Nat) :
    size ∈ sizes ↔ size = 16 ∨ size = 32 ∨ size = 48 ∨ size = 64 := by
  simp only [sizes, List.mem_cons, List.not_mem_nil, or_false]

/-- A block has places. -/
theorem Block.pos_of_mem_sizes {size : Nat} (h : size ∈ sizes) : 0 < size := by
  rw [mem_sizes_iff] at h
  omega

/-- The block that is chosen for a batch is supported. -/
theorem Block.forBatch_mem_sizes (tokens chosen experts : Nat) :
    (forBatch tokens chosen experts).size ∈ sizes := by
  simp only [forBatch]
  cases hfind : sizes.find? (divUp (tokens * chosen) (max experts 1) ≤ ·) with
  | none => exact (by decide : 64 ∈ sizes)
  | some size => exact List.mem_of_find?_eq_some hfind

theorem Workspace.size_ofSize (size : Nat) : (ofSize size).size = size := Array.size_replicate

/-- A larger block needs more room. -/
theorem Workspace.required_mono (columns rows : Nat) {small large : Nat} (h : small ≤ large) :
    required columns rows small ≤ required columns rows large :=
  Nat.add_le_add_left (Nat.mul_le_mul_right _ h) _

private theorem le_foldl_max {sizes : List Nat} {size : Nat} (least : Nat)
    (h : size ≤ least ∨ size ∈ sizes) : size ≤ sizes.foldl max least := by
  induction sizes generalizing least with
  | nil => exact h.resolve_right List.not_mem_nil
  | cons first sizes ih =>
    apply ih
    rcases h with hle | hmem
    · exact .inl (Nat.le_trans hle (Nat.le_max_left ..))
    · rcases List.mem_cons.mp hmem with rfl | hmem
      · exact .inl (Nat.le_max_right ..)
      · exact .inr hmem

/-- A workspace for several shapes has room for each of them in every supported block. -/
theorem Workspace.required_le_size_forShapes {shapes : List (Nat × Nat)} {columns rows block : Nat}
    (hshape : (columns, rows) ∈ shapes) (hblock : block ∈ Block.sizes) :
    required columns rows block ≤ (forShapes shapes).size := by
  have hlargest : block ≤ 64 := by
    rw [Block.mem_sizes_iff] at hblock
    omega
  rw [forShapes, size_ofSize]
  refine Nat.le_trans (required_mono columns rows hlargest) (le_foldl_max 0 (.inr ?_))
  exact List.mem_map_of_mem hshape

namespace ProductShape

/-- Sizes that a product can have. -/
structure Sound (s : ProductShape) : Prop where
  tokens_pos : 0 < s.tokens
  columns_pos : 0 < s.columns
  rows_pos : 0 < s.rows
  experts_pos : 0 < s.experts
  chosen_pos : 0 < s.chosen
  block_mem : s.block ∈ Block.sizes
  columns_mod : s.columns % 64 = 0
  rows_mod : s.rows % 64 = 0

/-- The check accepts exactly the sound shapes. -/
theorem check_eq_ok_iff (s : ProductShape) : s.check = .ok () ↔ s.Sound := by
  simp only [check, error_bind, throw_eq_error, bind_eq_ok_iff, refuse_eq_ok_iff]
  constructor
  · rintro ⟨hempty, hexperts, hchosen, ⟨⟩, hblock, hshape⟩
    obtain ⟨hcolumns, hrows, _⟩ := (Support.checkShape_eq_ok_iff ..).mp hshape
    exact ⟨by omega, by omega, by omega, by omega, by omega,
      (Block.check_eq_ok_iff _).mp hblock, hcolumns, hrows⟩
  · intro h
    have := h.tokens_pos
    have := h.columns_pos
    have := h.rows_pos
    have := h.experts_pos
    have := h.chosen_pos
    refine ⟨by omega, by omega, by omega, (), (Block.check_eq_ok_iff _).mpr h.block_mem, ?_⟩
    exact (Support.checkShape_eq_ok_iff ..).mpr ⟨h.columns_mod, h.rows_mod, by omega⟩

/-- The weights of a sound shape consist of tiles. -/
theorem Sound.tiled {s : ProductShape} (h : s.Sound) : WeightLayout.Tiled s.rows s.columns :=
  WeightLayout.tiled_of_granules h.rows_mod h.columns_mod

theorem Sound.block_pos {s : ProductShape} (h : s.Sound) : 0 < s.block :=
  Block.pos_of_mem_sizes h.block_mem

/-- A slot reads a row of activations that there is. -/
theorem activationRow_lt {s : ProductShape} {slot : Nat} (hslot : slot < s.slots) :
    s.activationRow slot < s.activationRows := by
  cases hr : s.replicated with
  | false =>
    simpa only [activationRow, activationRows, hr, Bool.false_eq_true, ite_false] using hslot
  | true =>
    simp only [activationRow, activationRows, hr, ite_true]
    apply Nat.div_lt_of_lt_mul
    rwa [Nat.mul_comm]

end ProductShape

/-! ### Packed words -/

namespace GroupedCall

/-- The packed words have the layout of a biased weight type, which their shape determines. -/
structure HoldsType (c : GroupedCall) (type : WeightType) : Prop where
  biased : type.hasZeroPoint = false
  element_eq : c.packed.element = .u32
  shape_eq : c.packed.shape =
    Experts.packedShape c.shape.experts c.shape.rows c.shape.columns type

/-- The inferred type is the one that the packed words have. -/
theorem inferType_eq_ok_iff {c : GroupedCall} (hs : c.shape.Sound) (type : WeightType) :
    c.inferType = .ok type ↔ c.HoldsType type := by
  have hcolumns := hs.columns_pos
  have hrows := hs.rows_mod
  have hfill := WeightLayout.packedRow_mul_packFactor hs.columns_mod
  constructor
  · intro h
    simp only [inferType, error_bind, pure_eq_ok, throw_eq_error, refuse_eq_ok_iff, ne_eq,
      not_not] at h
    obtain ⟨helement, h⟩ := h
    split at h
    · rename_i experts tiles words hshape
      simp only [refuse_eq_ok_iff, not_not, not_or] at h
      obtain ⟨hexperts, htiles, ⟨hwords, hband⟩, h⟩ := h
      split at h
      · rename_i type' hsymmetric
        split at h
        · rename_i hfactor
          cases h
          have hbiased := ((WeightType.symmetric?_eq_some_iff ..).mp hsymmetric).1
          have hrow : words * type.packFactor = c.shape.columns * WeightLayout.tile := by
            rw [hfactor]
            exact Nat.mul_div_cancel' (Nat.dvd_of_mod_eq_zero hband)
          refine ⟨hbiased, helement, ?_⟩
          rw [hshape, Experts.packedShape, hexperts, ← htiles, ← hrow,
            Nat.mul_div_cancel _ type.packFactor_pos, Nat.mul_div_cancel _ (by decide)]
        · cases h
      · cases h
    · cases h
  · intro h
    have hwords : c.shape.columns * WeightLayout.tile / type.packFactor ≠ 0 := by
      intro hzero
      have hband := hfill type
      rw [hzero, Nat.zero_mul, WeightLayout.tile] at hband
      omega
    have htiles : c.shape.rows / WeightLayout.tile * WeightLayout.tile = c.shape.rows := by
      rw [WeightLayout.tile]
      omega
    have hfactor : c.shape.columns * WeightLayout.tile /
        (c.shape.columns * WeightLayout.tile / type.packFactor) = type.packFactor := by
      conv => lhs; lhs; rw [← hfill type]
      exact Nat.mul_div_cancel_left _ (Nat.pos_of_ne_zero hwords)
    have hmod : c.shape.columns * WeightLayout.tile %
        (c.shape.columns * WeightLayout.tile / type.packFactor) = 0 := by
      conv => lhs; lhs; rw [← hfill type]
      exact Nat.mul_mod_right _ _
    have hwidth : max type.packFactor 1 = type.packFactor := by
      rcases type.packFactor_mem with hf | hf <;> rw [hf] <;> decide
    have hsymmetric : WeightType.symmetric? (32 / max type.packFactor 1) = some type := by
      rw [hwidth, WeightType.symmetric?_eq_some_iff]
      exact ⟨h.biased, type.bits_eq_div_packFactor.symm⟩
    simp only [inferType, h.element_eq, h.shape_eq, Experts.packedShape, error_bind, pure_eq_ok,
      throw_eq_error, hwords, htiles, hmod, hfactor, hsymmetric, ne_eq, not_true_eq_false,
      or_self, ite_true, ite_false]

/-! ### Scales, activations and weights -/

/-- The scales have a count of groups whose size the weight type supports. -/
structure HoldsGroups (c : GroupedCall) (type : WeightType) (groups : Nat) (groupSize : Int) :
    Prop where
  shape_eq : c.scales.shape = [c.shape.experts, groups, c.shape.columns]
  float : c.scales.element.isFloat = true
  size_eq : Support.groupSizeOfCount c.shape.rows groups = .ok groupSize
  admitted : Support.admits type groupSize false none = true
  divides : 0 < groupSize → c.shape.rows % groupSize.toNat = 0

/-- The groups read off the scales are those that the scales have. -/
theorem readGroups_eq_ok_iff {c : GroupedCall} (hs : c.shape.Sound) (type : WeightType)
    (groups : Nat) (groupSize : Int) :
    c.readGroups type = .ok (groups, groupSize) ↔ c.HoldsGroups type groups groupSize := by
  unfold readGroups
  constructor
  · intro h
    split at h
    · rename_i experts groups' columns hshape
      simp only [error_bind, pure_eq_ok, throw_eq_error, bind_eq_ok_iff, refuse_eq_ok_iff,
        Except.ok.injEq, Prod.mk.injEq, not_or, ne_eq, not_not, Bool.not_eq_true',
        Bool.not_eq_false] at h
      obtain ⟨⟨rfl, rfl⟩, hfloat, size, hsize, hadmits, ⟨⟩, hcheck, rfl, rfl⟩ := h
      exact ⟨hshape, hfloat, hsize, hadmits, ((Support.checkShape_eq_ok_iff ..).mp hcheck).2.2⟩
    · cases h
  · intro h
    have hcheck := (Support.checkShape_eq_ok_iff ..).mpr
      ⟨hs.columns_mod, hs.rows_mod, h.divides⟩
    simp only [h.shape_eq, error_bind, pure_eq_ok, throw_eq_error, bind_eq_ok_iff,
      refuse_eq_ok_iff, Except.ok.injEq, Prod.mk.injEq, ne_eq, not_true_eq_false, or_self,
      not_false_eq_true, true_and, h.float, Bool.not_true, Bool.false_eq_true, Bool.not_eq_true',
      Bool.not_eq_false]
    exact ⟨groupSize, h.size_eq, h.admitted, (), hcheck, rfl⟩

/-- Every weight row lies in a group. -/
theorem HoldsGroups.group_lt {c : GroupedCall} {type : WeightType} {groups : Nat} {groupSize : Int}
    (h : c.HoldsGroups type groups groupSize) {k : Nat} (hk : k < c.shape.rows) :
    k / (c.shape.rows / groups) < groups := by
  obtain ⟨_, hdivides, _⟩ := (Support.groupSizeOfCount_eq_ok_iff ..).mp h.size_eq
  apply Nat.div_lt_of_lt_mul
  rwa [Nat.div_mul_cancel (Nat.dvd_of_mod_eq_zero hdivides)]

/-- The activations have a supported type and one row for each row that slots read. -/
structure HoldsActivations (c : GroupedCall) : Prop where
  activation : c.activations.element.isActivation = true
  shape_eq : c.activations.shape = [c.shape.activationRows, c.shape.rows]

/-- The check accepts exactly activations of the shape of the call. -/
theorem checkActivations_eq_ok_iff (c : GroupedCall) :
    c.checkActivations = .ok () ↔ c.HoldsActivations := by
  simp only [checkActivations, error_bind, throw_eq_error, pure_eq_ok, refuse_eq_ok_iff,
    Bool.not_eq_true', Bool.not_eq_false, ne_eq, not_not, and_true]
  exact ⟨fun h => ⟨h.1, h.2⟩, fun h => ⟨h.activation, h.shape_eq⟩⟩

/-- The weights of the slots are there when the product is weighted. -/
structure HoldsWeights (c : GroupedCall) (weights : Option (Array Float32)) : Prop where
  some_of_weighted : c.shape.weighted = true → ∃ t : Tensor, c.weights = some t ∧
    t.shape = [c.shape.tokens, c.shape.chosen] ∧ weights = some t.singles
  none_of_not_weighted : c.shape.weighted = false → weights = none

/-- The routing weights read are those that the call has. -/
theorem readWeights_eq_ok_iff (c : GroupedCall) (weights : Option (Array Float32)) :
    c.readWeights = .ok weights ↔ c.HoldsWeights weights := by
  cases hw : c.shape.weighted with
  | false =>
    simp only [readWeights, hw, Bool.false_eq_true, ite_false, pure_eq_ok, Except.ok.injEq]
    exact ⟨fun h => ⟨by simp [hw], fun _ => h.symm⟩, fun h => (h.none_of_not_weighted hw).symm⟩
  | true =>
    simp only [readWeights, hw, ite_true]
    constructor
    · intro h
      split at h
      · cases h
      · rename_i t ht
        simp only [error_bind, throw_eq_error, pure_eq_ok, refuse_eq_ok_iff, ne_eq, not_not,
          Except.ok.injEq] at h
        exact ⟨fun _ => ⟨t, ht, h.1, h.2.symm⟩, by simp [hw]⟩
    · intro h
      obtain ⟨t, ht, hshape, rfl⟩ := h.some_of_weighted hw
      simp only [ht, hshape, ne_eq, not_true_eq_false, ite_false, pure_eq_ok]

/-- Slot weights are read when they have the shape of the slots. -/
theorem exists_holdsWeights_of_shape {c : GroupedCall}
    (h : c.shape.weighted = true →
      ∃ t : Tensor, c.weights = some t ∧ t.shape = [c.shape.tokens, c.shape.chosen]) :
    ∃ weights, c.HoldsWeights weights := by
  cases hw : c.shape.weighted with
  | false => exact ⟨none, by simp [hw], fun _ => rfl⟩
  | true =>
    obtain ⟨t, ht, hshape⟩ := h hw
    exact ⟨some t.singles, fun _ => ⟨t, ht, hshape, rfl⟩, by simp [hw]⟩

/-! ### The whole call -/

/-- The outcome of all checks of a call: the operands `o` are read from its tensors, with the
stored scales brought into the order of the columns. -/
structure Accepted (c : GroupedCall) (w : Workspace) (o : Operands) (groupSize : Int)
    (scales : Tensor) : Prop where
  sound : c.shape.Sound
  holdsActivations : c.HoldsActivations
  holdsType : c.HoldsType o.type
  holdsGroups : c.HoldsGroups o.type o.groups groupSize
  routing : Plan.Valid c.sortedIds c.offsets c.shape.padded c.shape.experts c.shape.block
    c.shape.slots
  holdsWeights : c.HoldsWeights o.weights
  room : Workspace.required c.shape.columns c.shape.rows c.shape.block ≤ w.size
  unpermute_eq : ScaleLayout.unpermute c.scales c.shape.rows c.shape.columns groupSize = .ok scales
  activations_eq : o.activations = c.activations.singles
  words_eq : o.words = c.packed.words
  scales_eq : o.scales = scales.singles
  plan_eq : o.plan =
    ⟨c.sortedIds.ints.map (Plan.clean c.shape.slots), c.offsets.ints.map Int.toNat⟩

/-- The operands of a call are read exactly when every check accepts it. -/
theorem prepare_eq_ok_iff (c : GroupedCall) (w : Workspace) (o : Operands) :
    c.prepare w = .ok o ↔ ∃ groupSize scales, c.Accepted w o groupSize scales := by
  simp only [prepare, error_bind, pure_eq_ok, throw_eq_error, bind_eq_ok_iff, refuse_eq_ok_iff,
    Except.ok.injEq, Bool.not_eq_true', Bool.not_eq_false, Workspace.fits, decide_eq_true_eq,
    readWeights_eq_ok_iff, Plan.load_eq_ok_iff]
  constructor
  · rintro ⟨⟨⟩, hcheck, ⟨⟩, ha, type, ht, ⟨groups, groupSize⟩, hg, plan, ⟨hvalid, rfl⟩, weights,
      hw, hroom, scales, hscales, rfl⟩
    have hs := (ProductShape.check_eq_ok_iff _).mp hcheck
    exact ⟨groupSize, scales, hs, (checkActivations_eq_ok_iff c).mp ha,
      (inferType_eq_ok_iff hs _).mp ht, (readGroups_eq_ok_iff hs ..).mp hg, hvalid, hw, hroom,
      hscales, rfl, rfl, rfl, rfl⟩
  · rintro ⟨groupSize, scales, h⟩
    refine ⟨(), (ProductShape.check_eq_ok_iff _).mpr h.sound,
      (), (checkActivations_eq_ok_iff c).mpr h.holdsActivations,
      o.type, (inferType_eq_ok_iff h.sound _).mpr h.holdsType,
      (o.groups, groupSize), (readGroups_eq_ok_iff h.sound ..).mpr h.holdsGroups,
      o.plan, ⟨h.routing, h.plan_eq⟩, o.weights, h.holdsWeights, h.room,
      scales, h.unpermute_eq, ?_⟩
    rw [← h.activations_eq, ← h.words_eq, ← h.scales_eq]

/-- A call that passes every check has operands. -/
theorem exists_accepted {c : GroupedCall} {w : Workspace} {type : WeightType} {groups : Nat}
    {groupSize : Int} {weights : Option (Array Float32)} {scales : Tensor}
    (sound : c.shape.Sound) (holdsActivations : c.HoldsActivations) (holdsType : c.HoldsType type)
    (holdsGroups : c.HoldsGroups type groups groupSize)
    (routing : Plan.Valid c.sortedIds c.offsets c.shape.padded c.shape.experts c.shape.block
      c.shape.slots) (holdsWeights : c.HoldsWeights weights)
    (room : Workspace.required c.shape.columns c.shape.rows c.shape.block ≤ w.size)
    (unpermute_eq : ScaleLayout.unpermute c.scales c.shape.rows c.shape.columns groupSize =
      .ok scales) : ∃ o, c.Accepted w o groupSize scales :=
  ⟨⟨_, _, _, weights, _, type, groups⟩, sound, holdsActivations, holdsType, holdsGroups, routing,
    holdsWeights, room, unpermute_eq, rfl, rfl, rfl, rfl⟩

end GroupedCall

end RoutedExperts
