import RoutedExperts.Proofs.Checks
import RoutedExperts.Proofs.Routing.Served
import RoutedExperts.Reference.Dense

/-!
# Routed rows and groups of slots

A dense reference scans all slots once for each expert, where a grouping is made in one pass over
them. Both find the same slots in the same order: the rows that are routed to an expert are those of
the slots in its group, padding apart (`routedRows_eq`), and an expert has rows exactly if its group
has places.
-/

namespace RoutedExperts

/-- Words are read as the integers that they are. -/
theorem Tensor.getElem?_ints_of_u32 {t : Tensor} (h : t.element = .u32) (i : Nat) :
    t.ints[i]? = t.words[i]?.map fun w => (w.toNat : Int) := by
  obtain ⟨element, shape, data, hsize⟩ := t
  subst h
  change (data.map Element.u32.toInt)[i]? = (data.map Element.u32.toWord)[i]?.map _
  rw [Array.getElem?_map, Array.getElem?_map, Option.map_map]
  apply congrArg (Option.map · data[i]?)
  funext w
  exact Element.toInt_u32 w

namespace Alignment

/-- The places of an expert's group. -/
def segment (a : Alignment) (e : Nat) : Array Nat :=
  a.sortedIds.extract (a.offsets.getD e 0) (a.offsets.getD (e + 1) 0)

/-- The slots in an expert's group, padding apart. -/
def slotsIn (a : Alignment) (e : Nat) : List Nat := (a.segment e).toList.filter (· < a.slots)

variable {block experts : Nat} {ids : Array Int} {a : Alignment}

/-- The segment of an expert has the slots with its id. -/
theorem Aligned.slotsIn_eq (h : Aligned block experts ids a) {e : Nat} (he : e < experts) :
    a.slotsIn e = slotsOf ids e := by
  have hslots : (slotsOf ids e).filter (· < ids.size) = slotsOf ids e := by
    apply List.filter_eq_self.mpr
    intro i hi
    exact decide_eq_true (List.mem_range.mp (List.mem_filter.mp hi).1)
  have hfiller : ∀ count, (List.replicate count ids.size).filter (· < ids.size) = [] := by
    intro count
    rw [List.filter_replicate_of_neg (by simp)]
  rw [slotsIn, segment, h.segment_eq e he, h.slots_eq, Array.toList_append, Array.toList_replicate,
    List.filter_append, hslots, hfiller, List.append_nil]

/-- Padding alone makes no group. -/
theorem Aligned.segment_eq_empty_iff (h : Aligned block experts ids a) (hblock : 0 < block)
    {e : Nat} (he : e < experts) : a.segment e = #[] ↔ slotsOf ids e = [] := by
  rw [segment, h.segment_eq e he]
  constructor
  · intro hempty
    have hlist := congrArg Array.toList hempty
    rw [Array.toList_append] at hlist
    exact (List.append_eq_nil_iff.mp hlist).1
  · intro hnone
    have hblocks : Block.divUp 0 block = 0 := Nat.le_zero.mp
      ((Block.divUp_le_iff hblock 0 0).mpr (Nat.zero_le _))
    rw [hnone, List.length_nil, hblocks, Nat.zero_mul]
    rfl

end Alignment

namespace Reference

open RoutedExperts.Alignment (slotsOf)

/-- The weight of a slot; one when there are no weights. -/
def slotWeight (weights : Option Tensor) (slot : Nat) : Float32 :=
  weights.elim 1 fun t => t.singles.getD slot 0

/-- What the given slots route to an expert. -/
def routedOf (chosen : Nat) (weights : Option Tensor) (e : Nat) (slots : List Nat) : Routed where
  expert := e
  tokens := slots.map (· / chosen)
  weights := slots.map (slotWeight weights)

variable {ids : Tensor} {weights : Option Tensor} {tokens chosen : Nat}

/-- The slots that a scan for an expert finds. -/
theorem filter_words_eq_slotsOf (helement : ids.element = .u32)
    (hshape : ids.shape = [tokens, chosen]) (e : Nat) :
    ((List.range (tokens * chosen)).filter fun i => (ids.words.getD i 0).toNat = e) =
      slotsOf ids.ints e := by
  have hsize : ids.ints.size = tokens * chosen := by rw [Tensor.size_ints, hshape, volume_pair]
  rw [slotsOf, hsize]
  apply List.filter_congr
  intro i hi
  have hword : i < ids.words.size := by
    rw [Tensor.size_words, hshape, volume_pair]
    exact List.mem_range.mp hi
  rw [Tensor.getElem?_ints_of_u32 helement, getElem?_eq_some_getD hword 0, Option.map_some]
  simp only [Option.some.injEq, Int.natCast_inj]

/-- What a scan reads the weights of slots from. -/
def readWeights (tokens chosen : Nat) (weights : Option Tensor) :
    Option (Nat × Nat × Array Float32) :=
  weights.map fun t => (tokens, chosen, t.singles)

/-- The weights of slots are read without an error. -/
theorem mapM_weightAt {slots : List Nat} (hslots : ∀ i ∈ slots, i < tokens * chosen) :
    (slots.mapM fun i => weightAt (readWeights tokens chosen weights) (i / chosen) (i % chosen)) =
      .ok (slots.map (slotWeight weights)) := by
  rw [mapM_eq_ok_iff, List.map_map]
  apply List.map_congr_left
  intro i hi
  cases weights with
  | none => rfl
  | some t =>
    have hplace := row_lt_column_lt (hslots i hi)
    simp only [readWeights, Option.map_some, weightAt, hplace, and_self, ite_true,
      div_mul_add_mod]
    rfl

/-- The slots of an expert are slots of the tokens. -/
theorem lt_of_mem_slotsOf (hshape : ids.shape = [tokens, chosen]) {e i : Nat}
    (hi : i ∈ slotsOf ids.ints e) : i < tokens * chosen := by
  have hlt := List.mem_range.mp (List.mem_filter.mp hi).1
  rwa [Tensor.size_ints, hshape, volume_pair] at hlt

/-- The rows that are routed to each expert are those of its slots. -/
theorem routedRows_eq (helement : ids.element = .u32) (hshape : ids.shape = [tokens, chosen])
    (hweights : ∀ t, weights = some t → t.shape = [tokens, chosen]) (experts : Nat) :
    routedRows ids weights experts =
      .ok (((List.range experts).filter fun e => slotsOf ids.ints e ≠ []).map fun e =>
        routedOf chosen weights e (slotsOf ids.ints e)) := by
  have hscan : ((List.range experts).mapM fun e => do
      let slots := (List.range (tokens * chosen)).filter fun i => (ids.words.getD i 0).toNat = e
      let scale ← slots.mapM fun i =>
        weightAt (readWeights tokens chosen weights) (i / chosen) (i % chosen)
      return { expert := e, tokens := slots.map (· / chosen), weights := scale : Routed }) =
        .ok ((List.range experts).map fun e =>
          routedOf chosen weights e (slotsOf ids.ints e)) := by
    rw [mapM_eq_ok_iff, List.map_map]
    apply List.map_congr_left
    intro e _
    simp only [filter_words_eq_slotsOf helement hshape,
      mapM_weightAt fun i hi => lt_of_mem_slotsOf hshape hi]
    rfl
  have hrouted : (((List.range experts).map fun e =>
      routedOf chosen weights e (slotsOf ids.ints e)).filter fun r => !r.tokens.isEmpty) =
        ((List.range experts).filter fun e => slotsOf ids.ints e ≠ []).map fun e =>
          routedOf chosen weights e (slotsOf ids.ints e) := by
    rw [List.filter_map]
    apply congrArg (List.map _)
    apply List.filter_congr
    intro e _
    cases hslots : slotsOf ids.ints e <;> simp [routedOf, hslots]
  rw [← hrouted]
  simp only [routedRows, rows?, hshape]
  cases weights with
  | none =>
    simp only [bind_eq_ok_iff, pure_eq_ok, Except.ok.injEq]
    exact ⟨_, rfl, _, rfl, _, hscan, rfl⟩
  | some t =>
    simp only [hweights t rfl, bind_eq_ok_iff, pure_eq_ok, Except.ok.injEq]
    exact ⟨_, rfl, _, rfl, _, rfl, _, hscan, rfl⟩

end Reference

end RoutedExperts
