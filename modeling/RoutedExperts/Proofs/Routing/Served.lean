import Mathlib.Data.List.Count
import RoutedExperts.Proofs.Routing.Alignment
import RoutedExperts.Proofs.Routing.Plan

/-!
# Groupings are plans

The tensors of a grouping are valid routing (`Alignment.valid_ofIds`), and the expert that serves a
slot is the one that the slot's id names (`Alignment.serves_ofIds_iff`). The numbers of a grouping
have to fit the words of its tensors: a grouping takes at most one block for each slot
(`Alignment.padded_ofIds_le`), and some of the slots in smaller blocks take no more places
(`Alignment.padded_ofIds_mono`).
-/

namespace RoutedExperts

/-- Dividing upwards gives the least number of parts that suffices. -/
theorem Block.divUp_le_iff {d : Nat} (hd : 0 < d) (n k : Nat) : divUp n d ≤ k ↔ n ≤ k * d := by
  rw [divUp, Nat.div_le_iff_le_mul_add_pred hd, Nat.mul_comm]
  omega

namespace Alignment

variable {block experts : Nat} {ids : Array Int}

/-- A matrix of experts is grouped if there are blocks and experts. -/
theorem ofTensor_eq_ok_iff {ids : Tensor} {tokens chosen : Nat}
    (hshape : ids.shape = [tokens, chosen]) (block experts : Nat) (a : Alignment) :
    ofTensor ids block experts = .ok a ↔
      0 < block ∧ 0 < experts ∧ a = ofIds block experts ids.ints := by
  simp only [ofTensor, hshape, refuse_eq_ok_iff, Except.ok.injEq, not_or]
  constructor
  · rintro ⟨⟨hblock, hexperts⟩, rfl⟩
    exact ⟨Nat.pos_of_ne_zero hblock, Nat.pos_of_ne_zero hexperts, rfl⟩
  · rintro ⟨hblock, hexperts, rfl⟩
    exact ⟨⟨Nat.ne_of_gt hblock, Nat.ne_of_gt hexperts⟩, rfl⟩

/-- A matrix of ids is refused exactly without blocks or without experts, with both numbers in the
error. -/
theorem ofTensor_eq_error_iff {ids : Tensor} {tokens chosen : Nat}
    (hshape : ids.shape = [tokens, chosen]) (block experts : Nat) (e : Error) :
    ofTensor ids block experts = .error e ↔
      (block = 0 ∨ experts = 0) ∧ .alignment block experts = e := by
  simp only [ofTensor, hshape, refuse_eq_error_iff, reduceCtorEq, and_false, or_false]

/-! ### How many places a grouping takes -/

/-- No slot is listed twice for an expert. -/
theorem nodup_slotsOf (ids : Array Int) (e : Nat) : (slotsOf ids e).Nodup :=
  List.nodup_range.filter _

/-- An expert has no more slots among some of the ids than among all of them. -/
theorem length_slotsOf_le {ids' : Array Int} {place : Nat → Nat} (hinj : place.Injective)
    (hplace : ∀ j id, ids'[j]? = some id → ids[place j]? = some id) (e : Nat) :
    (slotsOf ids' e).length ≤ (slotsOf ids e).length := by
  have hsubset : (slotsOf ids' e).map place ⊆ slotsOf ids e := by
    intro slot hslot
    obtain ⟨j, hj, rfl⟩ := List.mem_map.mp hslot
    exact (mem_slotsOf_iff ids e _).mpr (hplace j e ((mem_slotsOf_iff ids' e j).mp hj))
  have hle := (List.subperm_of_subset ((nodup_slotsOf ids' e).map hinj) hsubset).length_le
  rwa [List.length_map] at hle

/-- Every slot belongs to at most one expert. -/
theorem segmentStart_slotsOf_le (experts : Nat) (ids : Array Int) :
    segmentStart (fun e => (slotsOf ids e).length) experts ≤ ids.size := by
  have hnodup : ((List.range experts).flatMap (slotsOf ids)).Nodup := by
    rw [List.nodup_flatMap]
    refine ⟨fun e _ => nodup_slotsOf ids e, List.nodup_range.imp ?_⟩
    intro e e' hne slot hslot hslot'
    rw [mem_slotsOf_iff] at hslot hslot'
    rw [hslot, Option.some.injEq, Int.natCast_inj] at hslot'
    exact hne hslot'
  have hsubset : (List.range experts).flatMap (slotsOf ids) ⊆ List.range ids.size := by
    intro slot hslot
    obtain ⟨e, _, hslot⟩ := List.mem_flatMap.mp hslot
    exact (List.mem_filter.mp hslot).1
  have hle := (List.subperm_of_subset hnodup hsubset).length_le
  rwa [length_flatMap_range, List.length_range] at hle

/-- Padding takes at most a block for each slot. -/
theorem paddedCount_le (hblock : 0 < block) (count : Nat) :
    paddedCount block count ≤ count * block := by
  apply Nat.mul_le_mul_right
  rw [Block.divUp_le_iff hblock]
  exact Nat.le_mul_of_pos_right count hblock

/-- Fewer slots in smaller blocks take no more places. -/
theorem paddedCount_mono {small large count count' : Nat} (hlarge : 0 < large)
    (hblock : small ∣ large) (hcount : count' ≤ count) :
    paddedCount small count' ≤ paddedCount large count := by
  obtain ⟨q, rfl⟩ := hblock
  have hsmall : 0 < small := Nat.pos_of_mul_pos_right hlarge
  have hplaces : paddedCount (small * q) count = Block.divUp count (small * q) * q * small := by
    rw [paddedCount, Nat.mul_assoc, Nat.mul_comm q small]
  have hle := hcount.trans (le_paddedCount hlarge count)
  rw [hplaces] at hle ⊢
  exact Nat.mul_le_mul_right small ((Block.divUp_le_iff hsmall ..).mpr hle)

/-- All groups take the places of their blocks together. -/
theorem padded_ofIds_eq (hblock : 0 < block) (experts : Nat) (ids : Array Int) :
    (ofIds block experts ids).padded =
      segmentStart (fun e => paddedCount block (slotsOf ids e).length) experts := by
  simp only [padded_ofIds, groupStart, length_group hblock]

/-- A grouping takes at most one block for each slot. -/
theorem padded_ofIds_le (hblock : 0 < block) (experts : Nat) (ids : Array Int) :
    (ofIds block experts ids).padded ≤ ids.size * block := by
  have hgroups : ∀ n, segmentStart (fun e => paddedCount block (slotsOf ids e).length) n ≤
      segmentStart (fun e => (slotsOf ids e).length) n * block := by
    intro n
    induction n with
    | zero => exact Nat.zero_le _
    | succ n ih =>
      have hle := paddedCount_le hblock (slotsOf ids n).length
      rw [segmentStart_succ, segmentStart_succ, Nat.add_mul]
      omega
  rw [padded_ofIds_eq hblock]
  exact (hgroups experts).trans (Nat.mul_le_mul_right block (segmentStart_slotsOf_le experts ids))

/-- Some of the slots in smaller blocks take no more places. -/
theorem padded_ofIds_mono {small large : Nat} (hlarge : 0 < large) (hblock : small ∣ large)
    {ids' : Array Int} {place : Nat → Nat} (hinj : place.Injective)
    (hplace : ∀ j id, ids'[j]? = some id → ids[place j]? = some id) (experts : Nat) :
    (ofIds small experts ids').padded ≤ (ofIds large experts ids).padded := by
  have hsmall : 0 < small := Nat.pos_of_dvd_of_pos hblock hlarge
  rw [padded_ofIds_eq hsmall, padded_ofIds_eq hlarge]
  induction experts with
  | zero => exact Nat.le_refl _
  | succ n ih =>
    have hle := paddedCount_mono hlarge hblock (length_slotsOf_le hinj hplace n)
    rw [segmentStart_succ, segmentStart_succ]
    omega

/-- A grouping that names only experts that exist has a place for every slot. -/
theorem size_le_padded_ofIds (block : Nat) (hids : ∀ id ∈ ids, 0 ≤ id ∧ id < experts) :
    ids.size ≤ (ofIds block experts ids).padded := by
  have hslots : List.range ids.size ⊆ (ofIds block experts ids).sortedIds.toList := by
    intro slot hslot
    have hslot : slot < ids.size := List.mem_range.mp hslot
    have hcount := count_sortedIds block experts (Array.getElem?_eq_getElem hslot)
    rw [if_pos (hids _ (Array.getElem_mem hslot))] at hcount
    exact Array.mem_toList_iff.mpr (Array.count_pos_iff.mp (by omega))
  have hle := (List.subperm_of_subset List.nodup_range hslots).length_le
  rwa [List.length_range, Array.length_toList] at hle

/-! ### The tensors of a grouping -/

section

variable (hslots : ids.size < twoTo 32)
  (hpadded : (ofIds block experts ids).padded < twoTo 32)

include hslots in
/-- The tensor of sorted ids is read back as they are. -/
theorem ints_idTensor_ofIds :
    (ofIds block experts ids).idTensor.ints = (ofIds block experts ids).sortedIds.map Int.ofNat :=
  (ints_wordVector_eq_iff _).mpr fun _ hv =>
    Nat.lt_of_le_of_lt (le_size_of_mem_sortedIds hv) hslots

include hpadded in
/-- The tensor of offsets is read back as they are. -/
theorem ints_offsetTensor_ofIds :
    (ofIds block experts ids).offsetTensor.ints =
      (ofIds block experts ids).offsets.map Int.ofNat :=
  (ints_wordVector_eq_iff _).mpr fun _ hv =>
    Nat.lt_of_le_of_lt (le_padded_of_mem_offsets hv) hpadded

include hpadded in
/-- An offset read back is the start of its group. -/
theorem getD_offsetTensor_ofIds {e : Nat} (he : e ≤ experts) :
    (ofIds block experts ids).offsetTensor.ints.getD e 0 = (groupStart block ids e : Int) := by
  have hsize : e < (ofIds block experts ids).offsets.size := by
    rw [offsets_ofIds, List.size_toArray, List.length_map, List.length_range]
    omega
  rw [ints_offsetTensor_ofIds hpadded, ← getD_offsets_ofIds block ids he,
    Array.getD_eq_getD_getElem?, Array.getD_eq_getD_getElem?, Array.getElem?_map,
    Array.getElem?_eq_getElem hsize]
  rfl

include hslots hpadded

/-- The expert that serves a slot is the one that its id names. -/
theorem serves_ofIds_iff {e slot : Nat} (he : e < experts) (hslot : slot < ids.size) :
    Plan.Serves (ofIds block experts ids).idTensor.ints (ofIds block experts ids).offsetTensor.ints
      e slot ↔ ids[slot]? = some (e : Int) := by
  have hgroup : slot ∈ group block ids e ↔ ids[slot]? = some (e : Int) := by
    have hfiller : slot ≠ ids.size := Nat.ne_of_lt hslot
    simp only [group, List.mem_append, mem_slotsOf_iff, List.mem_replicate, hfiller, and_false,
      or_false]
  have hplace : ∀ p, groupStart block ids e ≤ p → p < groupStart block ids (e + 1) →
      ((ofIds block experts ids).idTensor.ints[p]? = some (slot : Int) ↔
        (group block ids e)[p - groupStart block ids e]? = some slot) := by
    intro p hlow hhigh
    rw [ints_idTensor_ofIds hslots, Array.getElem?_map, ← Array.getElem?_toList, toList_sortedIds,
      getElem?_flatMap_range (group block ids) he hlow hhigh, ← groupStart, Option.map_eq_some_iff]
    constructor
    · rintro ⟨slot', hread, heq⟩
      rw [hread, Int.ofNat.inj heq]
    · intro hread
      exact ⟨slot, hread, rfl⟩
  rw [Plan.Serves, getD_offsetTensor_ofIds hpadded (Nat.le_of_lt he),
    getD_offsetTensor_ofIds (e := e + 1) hpadded he, ← hgroup]
  constructor
  · rintro ⟨p, hlow, hhigh, hread⟩
    exact List.mem_of_getElem? ((hplace p (by omega) (by omega)).mp hread)
  · intro hmem
    obtain ⟨q, hq⟩ := List.mem_iff_getElem?.mp hmem
    have hlength : q < (group block ids e).length := (List.getElem?_eq_some_iff.mp hq).1
    have hend : groupStart block ids (e + 1) =
        groupStart block ids e + (group block ids e).length := segmentStart_succ _ e
    refine ⟨groupStart block ids e + q, by omega, by omega, ?_⟩
    rw [hplace _ (by omega) (by omega), Nat.add_sub_cancel_left, hq]

/-- The tensors of a grouping are accepted as the routing of a product. -/
theorem valid_ofIds (hblock : 0 < block) : Plan.Valid (ofIds block experts ids).idTensor
    (ofIds block experts ids).offsetTensor (ofIds block experts ids).padded experts block
    ids.size where
  ids_vector := ⟨rfl, rfl⟩
  offsets_vector := ⟨rfl, rfl⟩
  ids_size := by rw [ints_idTensor_ofIds hslots, Array.size_map, padded]
  cuts := by
    have hsize : (ofIds block experts ids).offsetTensor.ints.size = experts + 1 := by
      rw [ints_offsetTensor_ofIds hpadded, Array.size_map, offsets_ofIds, List.size_toArray,
        List.length_map, List.length_range]
    refine ⟨hsize, ?_, ?_, ?_, ?_⟩
    · exact getD_offsetTensor_ofIds hpadded (Nat.zero_le _)
    · rw [getD_offsetTensor_ofIds hpadded (Nat.le_refl _), padded_ofIds]
    · intro e he
      rw [getD_offsetTensor_ofIds hpadded (Nat.le_of_lt he),
        getD_offsetTensor_ofIds (e := e + 1) hpadded he]
      exact Int.ofNat_le.mpr (segmentStart_mono _ (Nat.le_succ e))
    · intro o ho
      obtain ⟨e, he⟩ := Array.mem_iff_getElem?.mp ho
      have hbound : e < experts + 1 := hsize ▸ (Array.getElem?_eq_some_iff.mp he).1
      have hoffset := getD_offsetTensor_ofIds hpadded (Nat.le_of_lt_succ hbound)
      rw [Array.getD_eq_getD_getElem?, he, Option.getD_some] at hoffset
      rw [hoffset, Int.toNat_natCast, ← labelStart_mul hblock, Nat.mul_mod_left]
  nodup := by
    rw [ints_idTensor_ofIds hslots, Array.toList_map, List.nodup_iff_count_le_one]
    intro id
    by_cases hid : Plan.IsSlot ids.size id
    · obtain ⟨slot, rfl⟩ := Int.eq_ofNat_of_zero_le hid.1
      have hslot : slot < ids.size := Int.ofNat_lt.mp hid.2
      have hcount := count_sortedIds block experts (Array.getElem?_eq_getElem hslot)
      have hinj : Function.Injective Int.ofNat := fun _ _ h => Int.ofNat.inj h
      rw [List.count_filter (by exact decide_eq_true hid), ← Int.ofNat_eq_natCast,
        List.count_map_of_injective _ _ hinj, Array.count_toList, hcount]
      split <;> decide
    · rw [List.count_eq_zero_of_not_mem]
      · exact Nat.zero_le _
      · intro hmem
        exact hid (of_decide_eq_true (List.mem_filter.mp hmem).2)

/-- The tensors of a grouping are read back as the grouping. -/
theorem load_ofIds (hblock : 0 < block) : Plan.load (ofIds block experts ids).idTensor
    (ofIds block experts ids).offsetTensor (ofIds block experts ids).padded experts block
    ids.size = .ok ⟨(ofIds block experts ids).sortedIds, (ofIds block experts ids).offsets⟩ := by
  have hids : (ofIds block experts ids).idTensor.ints.map (Plan.clean ids.size) =
      (ofIds block experts ids).sortedIds := by
    rw [ints_idTensor_ofIds hslots, Array.map_map]
    conv => rhs; rw [← Array.map_id (ofIds block experts ids).sortedIds]
    apply Array.map_congr_left
    intro v hv
    exact Plan.clean_natCast (le_size_of_mem_sortedIds hv)
  have hoffsets : (ofIds block experts ids).offsetTensor.ints.map Int.toNat =
      (ofIds block experts ids).offsets := by
    rw [ints_offsetTensor_ofIds hpadded, Array.map_map]
    exact Array.map_id _
  exact (Plan.load_eq_ok_iff ..).mpr
    ⟨valid_ofIds hslots hpadded hblock, by rw [hids, hoffsets]⟩

end

end Alignment

end RoutedExperts
