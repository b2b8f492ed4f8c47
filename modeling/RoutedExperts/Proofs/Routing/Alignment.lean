import Mathlib.Data.List.Induction
import RoutedExperts.Proofs.Segments
import RoutedExperts.Proofs.Tensor.Entries
import RoutedExperts.Routing.Alignment

/-!
# Groups of slots end to end

What the grouping of slots by expert returns. One pass over the ids leaves each expert with its
slots in increasing order (`toList_buckets`). Groups that lie end to end are cut out again between
the sums of their lengths (`extract_flatMap_range`), which are the boundaries
(`boundaries_map_range`), and with lengths of whole blocks the same holds for the labels of the
blocks. `Aligned` collects what follows for the grouping as a whole. Its tensors keep the low 32
bits of every number, which loses nothing of the slots and the boundaries but the expert of a block
where an id names one beyond `2 ^ 32` (`ints_expertTensor_eq_iff`).
-/

namespace RoutedExperts

namespace Alignment

/-- The slots that chose an expert, in increasing order. -/
def slotsOf (ids : Array Int) (e : Nat) : List Nat :=
  (List.range ids.size).filter fun i => ids[i]? = some (e : Int)

/-- The slots of an expert are those with its id. -/
theorem mem_slotsOf_iff (ids : Array Int) (e i : Nat) :
    i ∈ slotsOf ids e ↔ ids[i]? = some (e : Int) := by
  simp only [slotsOf, List.mem_filter, List.mem_range, decide_eq_true_eq, and_iff_right_iff_imp]
  intro h
  exact (Array.getElem?_eq_some_iff.mp h).1

/-! ### One pass over the ids -/

/-- An id names the expert that it equals, if there is one. -/
theorem expert?_eq_some_iff (experts : Nat) (id : Int) (e : Nat) :
    expert? experts id = some e ↔ id = e ∧ e < experts := by
  unfold expert?
  split
  · rw [Option.some.injEq]
    omega
  · simp only [reduceCtorEq, false_iff]
    omega

/-- One more id adds its place to the slots of the expert it equals. -/
theorem slotsOf_push (ids : Array Int) (id : Int) (e : Nat) :
    slotsOf (ids.push id) e = slotsOf ids e ++ if id = (e : Int) then [ids.size] else [] := by
  have hbefore : (List.range ids.size).filter (fun i => (ids.push id)[i]? = some (e : Int)) =
      slotsOf ids e := by
    apply List.filter_congr
    intro i hi
    have hne : i ≠ ids.size := Nat.ne_of_lt (List.mem_range.mp hi)
    rw [Array.getElem?_push, if_neg hne]
  rw [slotsOf, Array.size_push, List.range_succ, List.filter_append, hbefore]
  congr 1
  by_cases h : id = (e : Int) <;>
    simp only [h, List.filter_cons, List.filter_nil, Array.getElem?_push_size, Option.some.injEq,
      decide_true, decide_false, Bool.false_eq_true, ite_true, ite_false]

/-- The groups after one pass: each expert has its slots in increasing order. -/
private theorem getElem?_foldl_place (experts : Nat) (ids : List Int) :
    ∀ e < experts, (ids.zipIdx.foldl (fun groups (p : Int × Nat) =>
      match expert? experts p.1 with
      | some e => groups.modify e (·.push p.2)
      | none => groups) (Array.replicate experts #[]))[e]? =
        some (slotsOf ids.toArray e).toArray := by
  induction ids using List.reverseRecOn with
  | nil =>
    intro e he
    simp only [List.zipIdx_nil, List.foldl_nil, Array.getElem?_replicate, he, ite_true]
    rfl
  | append_singleton ids id ih =>
    intro e he
    rw [← List.push_toArray, slotsOf_push, List.size_toArray]
    simp only [List.zipIdx_append, List.zipIdx_cons, List.zipIdx_nil, List.foldl_append,
      List.foldl_cons, List.foldl_nil, Nat.zero_add]
    cases hid : expert? experts id with
    | none =>
      have hne : id ≠ (e : Int) := by
        intro heq
        have hsome := (expert?_eq_some_iff experts id e).mpr ⟨heq, he⟩
        rw [hid] at hsome
        cases hsome
      rw [if_neg hne, List.append_nil]
      exact ih e he
    | some e' =>
      obtain ⟨rfl, _⟩ := (expert?_eq_some_iff experts id e').mp hid
      simp only [Array.getElem?_modify, ih e he, Option.map_some]
      by_cases heq : e' = e
      · simp only [heq, ite_true, List.push_toArray]
      · have hne : ¬ ((e' : Int) = e) := by omega
        simp only [heq, hne, ite_false, List.append_nil]

private theorem size_foldl_place (experts : Nat) (pairs : List (Int × Nat))
    (groups : Array (Array Nat)) : (pairs.foldl (fun groups (p : Int × Nat) =>
      match expert? experts p.1 with
      | some e => groups.modify e (·.push p.2)
      | none => groups) groups).size = groups.size := by
  induction pairs generalizing groups with
  | nil => rfl
  | cons p pairs ih =>
    rw [List.foldl_cons, ih]
    split
    · exact Array.size_modify
    · rfl

/-- One pass over the ids leaves each expert with its slots in increasing order. -/
theorem toList_buckets (experts : Nat) (ids : Array Int) :
    (buckets experts ids).toList = (List.range experts).map fun e => (slotsOf ids e).toArray := by
  have hfold : buckets experts ids = ids.toList.zipIdx.foldl (fun groups (p : Int × Nat) =>
      match expert? experts p.1 with
      | some e => groups.modify e (·.push p.2)
      | none => groups) (Array.replicate experts #[]) :=
    foldl_zipIdx _ _ ids
  have hsize : (buckets experts ids).size = experts := by
    rw [hfold, size_foldl_place, Array.size_replicate]
  apply List.ext_getElem?
  intro e
  rw [Array.getElem?_toList, List.getElem?_map]
  by_cases he : e < experts
  · rw [hfold, getElem?_foldl_place experts ids.toList e he, List.getElem?_range he,
      Option.map_some, Array.toArray_toList]
  · rw [Array.getElem?_eq_none (by omega), List.getElem?_eq_none (by rw [List.length_range]; omega),
      Option.map_none]

/-! ### Boundaries of groups -/

/-- The boundaries of lists end to end are the places where they begin and where the last ends. -/
theorem boundaries_map_range (size : Nat → Nat) (n : Nat) :
    boundaries ((List.range n).map size).toArray =
      ((List.range (n + 1)).map (segmentStart size)).toArray := by
  induction n with
  | zero => rfl
  | succ n ih =>
    have hlast : ((List.range (n + 1)).map (segmentStart size)).toArray.back? =
        some (segmentStart size n) := by
      rw [List.back?_toArray, List.range_succ, List.map_append, List.map_singleton,
        List.getLast?_concat]
    rw [List.range_succ, List.map_append, List.map_singleton, ← List.push_toArray, boundaries,
      Array.foldl_push, ← boundaries, ih, hlast, Option.getD_some, ← segmentStart_succ,
      List.push_toArray, List.range_succ (n := n + 1), List.map_append, List.map_singleton]

/-! ### The groups of a grouping -/

/-- The group of an expert: its slots, filled up to whole blocks. -/
def group (block : Nat) (ids : Array Int) (e : Nat) : List Nat :=
  slotsOf ids e ++ List.replicate
    (paddedCount block (slotsOf ids e).length - (slotsOf ids e).length) ids.size

/-- Where the group of an expert begins. -/
def groupStart (block : Nat) (ids : Array Int) (e : Nat) : Nat :=
  segmentStart (fun e => (group block ids e).length) e

/-- The labels of an expert's blocks. -/
def labels (block : Nat) (ids : Array Int) (e : Nat) : List Nat :=
  List.replicate ((group block ids e).length / block) e

/-- The place of the label of an expert's first block. -/
def labelStart (block : Nat) (ids : Array Int) (e : Nat) : Nat :=
  segmentStart (fun e => (labels block ids e).length) e

/-- The padded slots of an expert are its group. -/
theorem toList_pad_slotsOf (block : Nat) (ids : Array Int) (e : Nat) :
    (pad block ids.size (slotsOf ids e).toArray).toList = group block ids e := by
  simp only [pad, group, Array.toList_append, Array.toList_replicate, List.size_toArray]

/-- Padding only adds places. -/
theorem le_paddedCount {block : Nat} (hblock : 0 < block) (count : Nat) :
    count ≤ paddedCount block count := by
  have hmod := Nat.mod_lt (count + block - 1) hblock
  have hdiv := Nat.div_add_mod (count + block - 1) block
  rw [paddedCount, Block.divUp, Nat.mul_comm]
  omega

/-- A group has its slots filled up to whole blocks. -/
theorem length_group {block : Nat} (hblock : 0 < block) (ids : Array Int) (e : Nat) :
    (group block ids e).length = paddedCount block (slotsOf ids e).length := by
  have hle := le_paddedCount hblock (slotsOf ids e).length
  rw [group, List.length_append, List.length_replicate]
  omega

/-- The padded buckets are the groups of the experts, in their order. -/
theorem toList_groups (block experts : Nat) (ids : Array Int) :
    ((buckets experts ids).map (pad block ids.size)).toList =
      (List.range experts).map fun e => (group block ids e).toArray := by
  rw [Array.toList_map, toList_buckets, List.map_map]
  apply List.map_congr_left
  intro e _
  rw [Function.comp_apply, ← toList_pad_slotsOf, Array.toArray_toList]

/-- The sorted ids are the groups of all experts behind each other. -/
theorem toList_sortedIds (block experts : Nat) (ids : Array Int) :
    (ofIds block experts ids).sortedIds.toList =
      (List.range experts).flatMap (group block ids) := by
  simp only [ofIds, Array.toList_flatten, toList_groups, List.map_map, List.flatMap_def]
  rfl

/-- All groups together take the places up to the end of the last one. -/
theorem padded_ofIds (block experts : Nat) (ids : Array Int) :
    (ofIds block experts ids).padded = groupStart block ids experts := by
  rw [padded, ← Array.length_toList, toList_sortedIds, length_flatMap_range, groupStart]

/-- The offsets are the starts of the groups and the end of the last one. -/
theorem offsets_ofIds (block experts : Nat) (ids : Array Int) :
    (ofIds block experts ids).offsets =
      ((List.range (experts + 1)).map (groupStart block ids)).toArray := by
  change boundaries _ = ((List.range (experts + 1)).map (segmentStart _)).toArray
  rw [← boundaries_map_range]
  apply congrArg boundaries
  apply Array.toList_inj.mp
  rw [Array.toList_map, toList_groups, List.map_map]
  rfl

/-- An offset is the start of its group. -/
theorem getD_offsets_ofIds (block : Nat) {experts e : Nat} (ids : Array Int) (he : e ≤ experts) :
    (ofIds block experts ids).offsets.getD e 0 = groupStart block ids e := by
  rw [offsets_ofIds, Array.getD_eq_getD_getElem?, List.getElem?_toArray, List.getElem?_map,
    List.getElem?_range (by omega), Option.map_some, Option.getD_some]

private theorem zipIdx_map_range {α : Type} (f : Nat → α) (n : Nat) :
    ((List.range n).map f).zipIdx = (List.range n).map fun e => (f e, e) := by
  apply List.ext_getElem
  · simp only [List.length_zipIdx, List.length_map]
  · intro i _ _
    simp only [List.getElem_zipIdx, List.getElem_map, List.getElem_range, Nat.zero_add]

/-- The experts of the blocks are the labels of all groups behind each other. -/
theorem toList_blockExperts (block experts : Nat) (ids : Array Int) :
    (ofIds block experts ids).blockExperts.toList =
      (List.range experts).flatMap (labels block ids) := by
  simp only [ofIds, Array.toList_flatMap, Array.toList_zipIdx, toList_groups, zipIdx_map_range,
    List.flatMap_map, List.size_toArray, Array.toList_replicate]
  rfl

/-- There are as many blocks as the groups have labels. -/
theorem size_blockExperts (block experts : Nat) (ids : Array Int) :
    (ofIds block experts ids).blockExperts.size = labelStart block ids experts := by
  rw [← Array.length_toList, toList_blockExperts, length_flatMap_range, labelStart]

/-- The labels of an expert begin at the block in which its group begins. -/
theorem labelStart_mul {block : Nat} (hblock : 0 < block) (ids : Array Int) (e : Nat) :
    labelStart block ids e * block = groupStart block ids e := by
  simp only [labelStart, groupStart, labels, List.length_replicate]
  induction e with
  | zero => exact Nat.zero_mul block
  | succ e ih =>
    have hwhole : (group block ids e).length / block * block = (group block ids e).length := by
      rw [length_group hblock, paddedCount, Nat.mul_div_cancel _ hblock]
    rw [segmentStart_succ, segmentStart_succ, Nat.add_mul, ih, hwhole]

/-- A block is labelled with the expert between whose boundaries it begins. -/
theorem getElem?_blockExperts_eq_some_iff {block experts b : Nat} (hblock : 0 < block)
    (ids : Array Int) (hb : b < (ofIds block experts ids).blockExperts.size) (e : Nat) :
    (ofIds block experts ids).blockExperts[b]? = some e ↔ e < experts ∧
      groupStart block ids e ≤ b * block ∧ b * block < groupStart block ids (e + 1) := by
  have hlabel : ∀ e < experts, labelStart block ids e ≤ b → b < labelStart block ids (e + 1) →
      (ofIds block experts ids).blockExperts[b]? = some e := by
    intro e he hlow hhigh
    have hplace : b - labelStart block ids e < (labels block ids e).length := by
      rw [labelStart, segmentStart_succ, ← labelStart] at hhigh
      omega
    rw [← Array.getElem?_toList, toList_blockExperts,
      getElem?_flatMap_range (labels block ids) he hlow hhigh, ← labelStart,
      List.getElem?_eq_getElem hplace]
    exact congrArg some (List.getElem_replicate _)
  rw [← labelStart_mul hblock, ← labelStart_mul hblock, Nat.mul_le_mul_right_iff hblock,
    Nat.mul_lt_mul_right hblock]
  constructor
  · intro h
    rw [size_blockExperts] at hb
    obtain ⟨e', he', hlow, hhigh⟩ := exists_segmentStart_le _ hb
    rw [hlabel e' he' hlow hhigh, Option.some.injEq] at h
    subst e'
    exact ⟨he', hlow, hhigh⟩
  · rintro ⟨he, hlow, hhigh⟩
    exact hlabel e he hlow hhigh

/-! ### Slots in the grouping -/

/-- The padding of a group is no slot, and a group holds no slot twice. -/
theorem count_group (block : Nat) {ids : Array Int} {i : Nat} {id : Int}
    (hid : ids[i]? = some id) (e : Nat) :
    (group block ids e).count i = if id = (e : Int) then 1 else 0 := by
  have hfiller : ids.size ≠ i := Nat.ne_of_gt (Array.getElem?_eq_some_iff.mp hid).1
  have hnodup : (slotsOf ids e).Nodup := List.nodup_range.filter _
  simp only [group, List.count_append, hnodup.count, mem_slotsOf_iff, hid, Option.some.injEq,
    List.count_replicate, beq_iff_eq, hfiller, ite_false, Nat.add_zero]

/-- A slot stands in the grouping once if its expert exists, and otherwise nowhere. -/
theorem count_sortedIds (block experts : Nat) {ids : Array Int} {i : Nat} {id : Int}
    (hid : ids[i]? = some id) : (ofIds block experts ids).sortedIds.count i =
      if 0 ≤ id ∧ id < experts then 1 else 0 := by
  rw [← Array.count_toList, toList_sortedIds]
  induction experts with
  | zero =>
    rw [if_neg (by omega)]
    rfl
  | succ experts ih =>
    rw [List.range_succ, List.flatMap_append, List.flatMap_singleton, List.count_append, ih,
      count_group block hid]
    split_ifs <;> omega

/-- What a grouping of slots by expert holds, for the given ids of experts. -/
structure Aligned (block experts : Nat) (ids : Array Int) (a : Alignment) : Prop where
  slots_eq : a.slots = ids.size
  offsets_size : a.offsets.size = experts + 1
  offsets_first : a.offsets.getD 0 0 = 0
  /-- A group takes the least number of whole blocks that hold its slots. -/
  offsets_step : ∀ e < experts, a.offsets.getD (e + 1) 0 =
    a.offsets.getD e 0 + Block.divUp (slotsOf ids e).length block * block
  offsets_last : a.offsets.getD experts 0 = a.padded
  /-- A group is its slots in increasing order, and then only padding. -/
  segment_eq : ∀ e < experts,
    a.sortedIds.extract (a.offsets.getD e 0) (a.offsets.getD (e + 1) 0) =
      (slotsOf ids e).toArray ++ Array.replicate
        (Block.divUp (slotsOf ids e).length block * block - (slotsOf ids e).length) ids.size
  blocks_size : a.blockExperts.size = a.padded / block
  block_expert_iff : ∀ b < a.blockExperts.size, ∀ e, a.blockExperts[b]? = some e ↔ e < experts ∧
    a.offsets.getD e 0 ≤ b * block ∧ b * block < a.offsets.getD (e + 1) 0
  /-- A slot with an expert stands once, in the group of its expert. -/
  served_once : ∀ i e : Nat, ids[i]? = some (e : Int) → e < experts → a.sortedIds.count i = 1 ∧
    i ∈ a.sortedIds.extract (a.offsets.getD e 0) (a.offsets.getD (e + 1) 0)
  /-- A slot without an expert stands nowhere. -/
  dropped : ∀ (i : Nat) (id : Int), ids[i]? = some id → id < 0 ∨ experts ≤ id → i ∉ a.sortedIds

/-- Ids are grouped as a grouping is to be. -/
theorem aligned_ofIds {block : Nat} (hblock : 0 < block) (experts : Nat) (ids : Array Int) :
    Aligned block experts ids (ofIds block experts ids) := by
  have hsegment : ∀ e < experts, (ofIds block experts ids).sortedIds.extract
      (groupStart block ids e) (groupStart block ids (e + 1)) = (group block ids e).toArray := by
    intro e he
    apply Array.toList_inj.mp
    rw [Array.toList_extract, toList_sortedIds]
    exact extract_flatMap_range (group block ids) he
  constructor
  case slots_eq => rfl
  case offsets_size =>
    rw [offsets_ofIds, List.size_toArray, List.length_map, List.length_range]
  case offsets_first => exact getD_offsets_ofIds block ids (Nat.zero_le _)
  case offsets_step =>
    intro e he
    rw [getD_offsets_ofIds block ids he, getD_offsets_ofIds block ids (Nat.le_of_lt he),
      groupStart, segmentStart_succ, length_group hblock, paddedCount, groupStart]
  case offsets_last => rw [getD_offsets_ofIds block ids (Nat.le_refl _), padded_ofIds]
  case segment_eq =>
    intro e he
    rw [getD_offsets_ofIds block ids he, getD_offsets_ofIds block ids (Nat.le_of_lt he),
      hsegment e he]
    apply Array.toList_inj.mp
    rw [Array.toList_append, Array.toList_replicate, group, paddedCount]
  case blocks_size =>
    rw [size_blockExperts, padded_ofIds, ← labelStart_mul hblock, Nat.mul_div_cancel _ hblock]
  case block_expert_iff =>
    intro b hb e
    rw [getElem?_blockExperts_eq_some_iff hblock ids hb]
    apply and_congr_right
    intro he
    rw [getD_offsets_ofIds block ids he, getD_offsets_ofIds block ids (Nat.le_of_lt he)]
  case served_once =>
    intro i e hid he
    rw [count_sortedIds block experts hid, if_pos ⟨Int.natCast_nonneg e, Int.ofNat_lt.mpr he⟩,
      getD_offsets_ofIds block ids he, getD_offsets_ofIds block ids (Nat.le_of_lt he),
      hsegment e he]
    refine ⟨rfl, List.mem_toArray.mpr ?_⟩
    exact List.mem_append_left _ ((mem_slotsOf_iff ids e i).mpr hid)
  case dropped =>
    intro i id hid hout
    rw [← Array.count_eq_zero, count_sortedIds block experts hid, if_neg (by omega)]

/-! ### The grouping as tensors -/

/-- A vector of words keeps the low bits of its numbers. -/
theorem ints_wordVector (values : Array Nat) :
    (wordVector values).ints = values.map fun v => ((v % twoTo 32 : Nat) : Int) := by
  have hsize : volume [values.size] = values.size := Nat.mul_one values.size
  apply Array.ext_getElem?
  intro i
  by_cases hi : i < values.size
  · have hword : (values.map Nat.toUInt32).getD i 0 = values[i].toUInt32 := by
      rw [Array.getD_eq_getD_getElem?, Array.getElem?_map, Array.getElem?_eq_getElem hi,
        Option.map_some, Option.getD_some]
    rw [wordVector, Tensor.ofWords, Tensor.getElem?_ints_ofFn .u32 _ (by rwa [hsize]), hword,
      Element.toInt_u32, Nat.toUInt32_eq, UInt32.toNat_ofNat', Array.getElem?_map,
      Array.getElem?_eq_getElem hi]
    rfl
  · rw [Array.getElem?_eq_none (by rw [Tensor.size_ints]; exact hsize ▸ Nat.le_of_not_lt hi),
      Array.getElem?_eq_none (by rw [Array.size_map]; omega)]

/-- A vector of words is read back exactly if its numbers have 32 bits. -/
theorem ints_wordVector_eq_iff (values : Array Nat) :
    (wordVector values).ints = values.map Int.ofNat ↔ ∀ v ∈ values, v < twoTo 32 := by
  rw [ints_wordVector, Array.map_inj_left]
  apply forall₂_congr
  intro v _
  rw [Int.ofNat_eq_natCast, Int.natCast_inj, Nat.mod_eq_iff_lt (by decide)]

/-- A sorted id is a slot, or the number of slots as padding. -/
theorem le_size_of_mem_sortedIds {block experts v : Nat} {ids : Array Int}
    (hv : v ∈ (ofIds block experts ids).sortedIds) : v ≤ ids.size := by
  rw [← Array.mem_toList_iff, toList_sortedIds, List.mem_flatMap] at hv
  obtain ⟨e, _, hv⟩ := hv
  rcases List.mem_append.mp hv with hslot | hfiller
  · exact Nat.le_of_lt (Array.getElem?_eq_some_iff.mp ((mem_slotsOf_iff ids e v).mp hslot)).1
  · exact Nat.le_of_eq (List.eq_of_mem_replicate hfiller)

/-- No offset is behind the last place. -/
theorem le_padded_of_mem_offsets {block experts v : Nat} {ids : Array Int}
    (hv : v ∈ (ofIds block experts ids).offsets) : v ≤ (ofIds block experts ids).padded := by
  rw [offsets_ofIds, List.mem_toArray, List.mem_map] at hv
  obtain ⟨e, he, rfl⟩ := hv
  rw [padded_ofIds]
  exact segmentStart_mono _ (Nat.le_of_lt_succ (List.mem_range.mp he))

/-- The experts of the blocks are those that some slot chose. -/
theorem mem_blockExperts_iff {block : Nat} (hblock : 0 < block) (experts : Nat) (ids : Array Int)
    (e : Nat) : e ∈ (ofIds block experts ids).blockExperts ↔ e < experts ∧ (e : Int) ∈ ids := by
  have hslots : slotsOf ids e = [] ↔ (e : Int) ∉ ids := by
    simp only [List.eq_nil_iff_forall_not_mem, mem_slotsOf_iff, Array.mem_iff_getElem?, not_exists]
  have hblocks : (group block ids e).length / block = 0 ↔ slotsOf ids e = [] := by
    rw [length_group hblock, paddedCount, Nat.mul_div_cancel _ hblock, ← List.length_eq_zero_iff,
      Block.divUp, Nat.div_eq_zero_iff]
    omega
  rw [← Array.mem_toList_iff, toList_blockExperts, List.mem_flatMap]
  constructor
  · rintro ⟨e', he', hmem⟩
    obtain ⟨hne, rfl⟩ := List.mem_replicate.mp hmem
    exact ⟨List.mem_range.mp he', not_not.mp fun h => hne (hblocks.mpr (hslots.mpr h))⟩
  · rintro ⟨he, hmem⟩
    refine ⟨e, List.mem_range.mpr he, List.mem_replicate.mpr ⟨?_, rfl⟩⟩
    intro hzero
    exact hslots.mp (hblocks.mp hzero) hmem

/-- The experts of the blocks are read back exactly if no id names an expert beyond 32 bits. -/
theorem ints_expertTensor_eq_iff {block : Nat} (hblock : 0 < block) (experts : Nat)
    (ids : Array Int) : (ofIds block experts ids).expertTensor.ints =
        (ofIds block experts ids).blockExperts.map Int.ofNat ↔
      ∀ id ∈ ids, id < experts → id < twoTo 32 := by
  rw [expertTensor, ints_wordVector_eq_iff]
  constructor
  · intro h id hid hlt
    cases id with
    | ofNat e =>
      have he := h e ((mem_blockExperts_iff hblock experts ids e).mpr ⟨Int.ofNat_lt.mp hlt, hid⟩)
      exact Int.ofNat_lt.mpr he
    | negSucc k => exact Int.lt_trans (Int.negSucc_lt_zero k) (by decide)
  · intro h e he
    obtain ⟨hlt, hmem⟩ := (mem_blockExperts_iff hblock experts ids e).mp he
    exact Int.ofNat_lt.mp (h e hmem (Int.ofNat_lt.mpr hlt))

/-- Every matrix of expert ids is grouped, and the slots and the boundaries are read back from their
tensors if there are fewer than `2 ^ 32` slots and places. The tensor of the blocks' experts keeps
the low bits of each, and is read back exactly if no id names an expert beyond 32 bits, so always
for at most `2 ^ 32` experts. -/
theorem exists_ofTensor_aligned {ids : Tensor} {tokens chosen block experts : Nat}
    (hshape : ids.shape = [tokens, chosen]) (hblock : 0 < block) (hexperts : 0 < experts) :
    ∃ a, ofTensor ids block experts = .ok a ∧ Aligned block experts ids.ints a ∧
      (ids.ints.size < twoTo 32 → a.padded < twoTo 32 →
        a.idTensor.ints = a.sortedIds.map Int.ofNat ∧
          a.offsetTensor.ints = a.offsets.map Int.ofNat) ∧
      a.expertTensor.ints = a.blockExperts.map (fun e => ((e % twoTo 32 : Nat) : Int)) ∧
      (a.expertTensor.ints = a.blockExperts.map Int.ofNat ↔
        ∀ id ∈ ids.ints, id < experts → id < twoTo 32) ∧
      (experts ≤ twoTo 32 → a.expertTensor.ints = a.blockExperts.map Int.ofNat) := by
  have hread := ints_expertTensor_eq_iff hblock experts ids.ints
  refine ⟨ofIds block experts ids.ints, ?_, aligned_ofIds hblock experts ids.ints, ?_,
    ints_wordVector _, hread, ?_⟩
  · have hsizes : ¬ (block = 0 ∨ experts = 0) := by omega
    simp only [ofTensor, hsizes, hshape, ite_false]
  · intro hslots hpadded
    constructor
    · apply (ints_wordVector_eq_iff _).mpr
      intro v hv
      exact Nat.lt_of_le_of_lt (le_size_of_mem_sortedIds hv) hslots
    · apply (ints_wordVector_eq_iff _).mpr
      intro v hv
      exact Nat.lt_of_le_of_lt (le_padded_of_mem_offsets hv) hpadded
  · intro hfew
    exact hread.mpr fun id _ hlt => Int.lt_of_lt_of_le hlt (Int.ofNat_le.mpr hfew)

/-- Three tokens with two slots each, two of them without an expert. -/
def sampleIds : Tensor := .ofFn .i64 [3, 2] fun i => [2, 0, 7, 2, -1, 2].getD i 0

/-- Six ids, two of them without an expert, are grouped in blocks of two, and all three tensors are
read back. -/
theorem exists_ofTensor_aligned_sampleIds :
    ofTensor sampleIds 2 4 = .ok ⟨#[1, 6, 0, 3, 5, 6], #[0, 2, 2], #[0, 2, 2, 6, 6], 6⟩ ∧
      ∃ a, ofTensor sampleIds 2 4 = .ok a ∧ Aligned 2 4 sampleIds.ints a ∧
        a.idTensor.ints = a.sortedIds.map Int.ofNat ∧
        a.offsetTensor.ints = a.offsets.map Int.ofNat ∧
        a.expertTensor.ints = a.blockExperts.map Int.ofNat := by
  have hshape : sampleIds.shape = [3, 2] := rfl
  have hvalue : ofTensor sampleIds 2 4 =
      .ok ⟨#[1, 6, 0, 3, 5, 6], #[0, 2, 2], #[0, 2, 2, 6, 6], 6⟩ := by decide +kernel
  obtain ⟨a, ha, haligned, htensors, _, _, hexperts⟩ :=
    exists_ofTensor_aligned hshape (by decide : 0 < 2) (by decide : 0 < 4)
  have hpadded : a.padded < twoTo 32 := by
    obtain rfl := Except.ok.inj (hvalue.symm.trans ha)
    decide
  obtain ⟨hids, hoffsets⟩ := htensors (by rw [Tensor.size_ints]; decide) hpadded
  exact ⟨hvalue, a, ha, haligned, hids, hoffsets, hexperts (by decide)⟩

/-- One slot that chose the last of `2 ^ 32 + 1` experts. -/
def wideIds : Tensor := .ofFn .i64 [1, 1] fun _ => 4294967296

theorem ints_wideIds : wideIds.ints = #[4294967296] := by decide +kernel

/-- The one block of the wide id belongs to the expert it names. -/
theorem blockExperts_wideIds :
    (ofIds 1 4294967297 #[4294967296]).blockExperts = #[4294967296] := by
  have hbefore : (List.range 4294967296).flatMap (labels 1 #[4294967296]) = [] := by
    rw [List.flatMap_eq_nil_iff]
    intro e he
    have hne : (4294967296 : Int) ≠ e := Int.ne_of_gt (Int.ofNat_lt.mpr (List.mem_range.mp he))
    have hnone : slotsOf #[4294967296] e = [] := by
      have hpush := slotsOf_push #[] 4294967296 e
      rwa [if_neg hne, List.append_nil] at hpush
    rw [labels, length_group Nat.one_pos, hnone]
    rfl
  apply Array.toList_inj.mp
  rw [toList_blockExperts, List.range_succ, List.flatMap_append, hbefore]
  rfl

/-- The block of the last of `2 ^ 32 + 1` experts is handed on as a block of the first. -/
theorem expertTensor_wideIds :
    ∃ a, ofTensor wideIds 1 4294967297 = .ok a ∧ wideIds.ints.size < twoTo 32 ∧
      a.padded < twoTo 32 ∧ a.blockExperts = #[4294967296] ∧ a.expertTensor.ints = #[0] ∧
      ¬ (a.offsets.getD 0 0 ≤ 0 * 1 ∧ 0 * 1 < a.offsets.getD 1 0) := by
  have haligned := aligned_ofIds Nat.one_pos 4294967297 #[4294967296]
  have hblocks := haligned.blocks_size
  rw [blockExperts_wideIds, Nat.div_one] at hblocks
  refine ⟨ofIds 1 4294967297 #[4294967296], ?_, ?_, ?_, blockExperts_wideIds, ?_, ?_⟩
  · rw [ofTensor, if_neg (by decide), ints_wideIds]
    rfl
  · rw [ints_wideIds]
    decide
  · rw [← hblocks]
    decide
  · rw [expertTensor, ints_wordVector, blockExperts_wideIds, List.map_toArray]
    rfl
  · intro hfirst
    have hexpert := (haligned.block_expert_iff 0 (by rw [blockExperts_wideIds]; decide) 0).mpr
      ⟨by decide, hfirst⟩
    rw [blockExperts_wideIds] at hexpert
    exact absurd hexpert (by decide)

end Alignment

end RoutedExperts
