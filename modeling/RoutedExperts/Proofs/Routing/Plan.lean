import Mathlib.Data.List.Nodup
import RoutedExperts.Proofs.Checks
import RoutedExperts.Routing.Plan

/-!
# What checked routing guarantees

`Plan.load_eq_ok_iff` characterises the routing that is accepted: two index vectors, offsets that
cut the places into whole blocks (`Cuts`), and no slot named twice. Everything that is no slot is
read as padding. From the offsets alone the segments of two experts share no place, so that an
accepted plan gives a slot to at most one expert.
-/

namespace RoutedExperts

namespace Plan

/-- Whether an id names a slot; every other id is padding. -/
def IsSlot (slots : Nat) (id : Int) : Prop := 0 ≤ id ∧ id < slots

instance (slots : Nat) (id : Int) : Decidable (IsSlot slots id) :=
  inferInstanceAs (Decidable (0 ≤ id ∧ id < slots))

/-- An id with all padding replaced by one number. -/
def clean (slots : Nat) (id : Int) : Nat := if IsSlot slots id then id.toNat else slots

/-- Cleaning keeps the slots and the number that stands for padding. -/
theorem clean_natCast {slots id : Nat} (h : id ≤ slots) : clean slots (id : Int) = id := by
  by_cases hslot : id < slots
  · exact if_pos ⟨Int.natCast_nonneg id, Int.ofNat_lt.mpr hslot⟩
  · rw [clean, if_neg fun hid => hslot (Int.ofNat_lt.mp hid.2)]
    exact Nat.le_antisymm (Nat.le_of_not_lt hslot) h

/-- Cleaning keeps a slot and makes no new one. -/
theorem clean_eq_iff {slots slot : Nat} (h : slot < slots) (id : Int) :
    clean slots id = slot ↔ id = slot := by
  unfold clean
  by_cases hid : IsSlot slots id
  · rw [if_pos hid]
    have := hid.1
    omega
  · rw [if_neg hid]
    unfold IsSlot at hid
    omega

/-! ### Offsets -/

/-- Offsets that cut `padded` places into whole blocks, expert by expert. -/
structure Cuts (offsets : Array Int) (padded experts block : Nat) : Prop where
  size_eq : offsets.size = experts + 1
  first : offsets.getD 0 0 = 0
  last : offsets.getD experts 0 = padded
  step : ∀ e < experts, offsets.getD e 0 ≤ offsets.getD (e + 1) 0
  whole : ∀ o ∈ offsets, o.toNat % block = 0

/-- No decrease is found exactly if the offsets ascend. -/
theorem decrease?_eq_none_iff (offsets : Array Int) : decrease? offsets = none ↔
    ∀ e < offsets.size - 1, offsets.getD e 0 ≤ offsets.getD (e + 1) 0 := by
  simp only [decrease?, List.findSome?_eq_none_iff, List.mem_range]
  apply forall_congr'
  intro e
  apply imp_congr_right
  intro _
  split
  · simp only [reduceCtorEq, false_iff]
    omega
  · simp only [true_iff]
    omega

/-- The check of the offsets accepts exactly the cuts into whole blocks. -/
theorem checkOffsets_eq_ok_iff (offsets : Array Int) (padded experts block : Nat) :
    checkOffsets offsets padded experts block = .ok () ↔ Cuts offsets padded experts block := by
  simp only [checkOffsets, error_bind, pure_eq_ok, throw_eq_error, refuse_eq_ok_iff, ne_eq,
    not_not]
  have hdecrease := decrease?_eq_none_iff offsets
  have hwhole : offsets.find? (fun o => o.toNat % block ≠ 0) = none ↔
      ∀ o ∈ offsets, o.toNat % block = 0 := by
    simp only [Array.find?_eq_none, decide_eq_true_eq, ne_eq, not_not]
  constructor
  · rintro ⟨hsize, hfirst, hlast, hrest⟩
    cases hd : decrease? offsets with
    | some d => simp only [hd, reduceCtorEq] at hrest
    | none =>
      cases hw : offsets.find? (fun o => o.toNat % block ≠ 0) with
      | some o => simp only [hd, hw, reduceCtorEq] at hrest
      | none =>
        have hstep := hdecrease.mp hd
        rw [hsize, Nat.add_sub_cancel] at hstep
        exact ⟨hsize, hfirst, hlast, hstep, hwhole.mp hw⟩
  · intro h
    have hstep := h.step
    rw [← Nat.add_sub_cancel (n := experts) (m := 1), ← h.size_eq] at hstep
    refine ⟨h.size_eq, h.first, h.last, ?_⟩
    rw [hdecrease.mpr hstep, hwhole.mpr h.whole]

/-- Later experts begin no earlier. -/
theorem Cuts.mono {offsets : Array Int} {padded experts block : Nat}
    (h : Cuts offsets padded experts block) {e e' : Nat} (hle : e ≤ e') (he : e' ≤ experts) :
    offsets.getD e 0 ≤ offsets.getD e' 0 := by
  induction hle with
  | refl => exact Int.le_refl _
  | @step e' _ ih => exact Int.le_trans (ih (by omega)) (h.step e' (by omega))

/-- No offset is negative. -/
theorem Cuts.nonneg {offsets : Array Int} {padded experts block : Nat}
    (h : Cuts offsets padded experts block) {e : Nat} (he : e ≤ experts) :
    0 ≤ offsets.getD e 0 := by
  have hmono := h.mono (Nat.zero_le e) he
  rwa [h.first] at hmono

/-- The offsets as natural numbers. -/
theorem Cuts.natCast_getD {offsets : Array Int} {padded experts block : Nat}
    (h : Cuts offsets padded experts block) {e : Nat} (he : e ≤ experts) :
    (((offsets.map Int.toNat).getD e 0 : Nat) : Int) = offsets.getD e 0 := by
  have hnonneg := h.nonneg he
  have hsize : e < offsets.size := by rw [h.size_eq]; omega
  simp only [Array.getD_eq_getD_getElem?, Array.getElem?_map, Array.getElem?_eq_getElem hsize,
    Option.map_some, Option.getD_some] at hnonneg ⊢
  exact Int.toNat_of_nonneg hnonneg

/-! ### Ids -/

private theorem place_of_padding {slots : Nat} {id : Int} (h : ¬ IsSlot slots id)
    (ids : Array Nat) (seen : Array Bool) :
    place slots (ids, seen) id = .ok (ids.push (clean slots id), seen) := by
  rw [clean, if_neg h]
  exact if_neg h

private theorem place_of_slot {slots : Nat} {id : Int} (h : IsSlot slots id) (ids : Array Nat)
    (seen : Array Bool) : place slots (ids, seen) id =
      if seen.getD id.toNat false = true then .error (.repeatedSlot id.toNat)
      else .ok (ids.push (clean slots id), seen.setIfInBounds id.toNat true) := by
  rw [clean, if_pos h]
  exact if_pos h

/-- Marking a slot as seen leaves the other slots as they were. -/
private theorem getD_mark {slots : Nat} {seen : Array Bool} (hseen : seen.size = slots)
    {id id' : Int} (hid : IsSlot slots id) (hid' : IsSlot slots id') :
    (seen.setIfInBounds id.toNat true).getD id'.toNat false = false ↔
      id' ≠ id ∧ seen.getD id'.toNat false = false := by
  unfold IsSlot at hid hid'
  have hbound : id.toNat < seen.size := by omega
  simp only [Array.getD_eq_getD_getElem?, Array.getElem?_setIfInBounds]
  by_cases he : id.toNat = id'.toNat
  · obtain rfl : id' = id := by omega
    simp only [hbound, ite_true, Option.getD_some, ne_eq, not_true_eq_false, Bool.true_eq_false,
      false_and]
  · have hne : id' ≠ id := by omega
    simp only [he, hne, ite_false, ne_eq, not_false_eq_true, true_and]

/-- Taking ids in succeeds when no slot among them is seen before or comes twice, and then appends
the cleaned ids to the places. -/
private theorem foldlM_place_eq_ok_iff {slots : Nat} (xs : List Int) (ids : Array Nat)
    {seen : Array Bool} (hseen : seen.size = slots) (out : Array Nat) :
    (∃ seen', xs.foldlM (place slots) (ids, seen) = .ok (out, seen')) ↔
      (∀ id ∈ xs, IsSlot slots id → seen.getD id.toNat false = false) ∧
        (xs.filter (IsSlot slots ·)).Nodup ∧ out.toList = ids.toList ++ xs.map (clean slots) := by
  induction xs generalizing ids seen with
  | nil =>
    simp only [List.foldlM_nil, pure_eq_ok, Except.ok.injEq, Prod.mk.injEq, exists_and_left,
      exists_eq', and_true, List.not_mem_nil, false_imp_iff, implies_true, List.filter_nil,
      List.nodup_nil, List.map_nil, List.append_nil, true_and, Array.toList_inj]
    exact eq_comm
  | cons id xs ih =>
    have happend : ids.toList ++ (id :: xs).map (clean slots) =
        (ids.push (clean slots id)).toList ++ xs.map (clean slots) := by
      rw [Array.toList_push, List.map_cons, List.append_assoc, List.singleton_append]
    by_cases hid : IsSlot slots id
    · rw [List.foldlM_cons, place_of_slot hid]
      by_cases hs : seen.getD id.toNat false = true
      · simp only [hs, ite_true, error_bind, reduceCtorEq, exists_false, false_iff]
        rintro ⟨hfresh, _⟩
        rw [hfresh id (List.mem_cons_self ..) hid] at hs
        exact Bool.false_ne_true hs
      · rw [if_neg hs]
        change (∃ seen', xs.foldlM (place slots) (ids.push (clean slots id),
          seen.setIfInBounds id.toNat true) = .ok (out, seen')) ↔ _
        rw [ih _ (by rw [Array.size_setIfInBounds, hseen]), happend]
        have hmark : (∀ id' ∈ xs, IsSlot slots id' →
            (seen.setIfInBounds id.toNat true).getD id'.toNat false = false) ↔
            id ∉ xs ∧ ∀ id' ∈ xs, IsSlot slots id' → seen.getD id'.toNat false = false := by
          constructor
          · intro h
            refine ⟨fun hmem => ((getD_mark hseen hid hid).mp (h id hmem hid)).1 rfl, ?_⟩
            exact fun id' hmem hid' => ((getD_mark hseen hid hid').mp (h id' hmem hid')).2
          · rintro ⟨hnot, h⟩ id' hmem hid'
            refine (getD_mark hseen hid hid').mpr ⟨?_, h id' hmem hid'⟩
            rintro rfl
            exact hnot hmem
        rw [hmark]
        simp only [List.mem_cons, forall_eq_or_imp, hid, hs, true_imp_iff, true_and,
          List.filter_cons, decide_true, ite_true, List.nodup_cons, List.mem_filter, and_true]
        constructor
        · rintro ⟨⟨hnot, hfresh⟩, hnodup, hout⟩
          exact ⟨hfresh, ⟨hnot, hnodup⟩, hout⟩
        · rintro ⟨hfresh, ⟨hnot, hnodup⟩, hout⟩
          exact ⟨⟨hnot, hfresh⟩, hnodup, hout⟩
    · rw [List.foldlM_cons, place_of_padding hid]
      change (∃ seen', xs.foldlM (place slots) (ids.push (clean slots id), seen) =
        .ok (out, seen')) ↔ _
      rw [ih _ hseen, happend]
      simp only [List.mem_cons, forall_eq_or_imp, hid, false_imp_iff, true_and,
        List.filter_cons, decide_false, Bool.false_eq_true, ite_false]

/-- The ids of a vector are accepted when no slot occurs twice among them. -/
theorem normalize_eq_ok_iff (slots : Nat) (ids : Array Int) (out : Array Nat) :
    normalize slots ids = .ok out ↔
      (ids.toList.filter (IsSlot slots ·)).Nodup ∧ out = ids.map (clean slots) := by
  have hfold := foldlM_place_eq_ok_iff ids.toList #[]
    (Array.size_replicate (n := slots) (v := false)) out
  have hfresh : ∀ id : Int, (Array.replicate slots false).getD id.toNat false = false := by
    intro id
    rw [Array.getD_eq_getD_getElem?, Array.getElem?_replicate]
    split <;> rfl
  simp only [hfresh, implies_true, true_and, List.nil_append] at hfold
  simp only [normalize, bind_eq_ok_iff, pure_eq_ok, Except.ok.injEq, ← Array.foldlM_toList]
  rw [← Array.toList_inj, Array.toList_map, ← hfold]
  constructor
  · rintro ⟨⟨out', seen⟩, hrun, rfl⟩
    exact ⟨seen, hrun⟩
  · rintro ⟨seen, hrun⟩
    exact ⟨(out, seen), hrun, rfl⟩

/-- No slot occurs twice among ids exactly when no two places name the same slot. -/
theorem nodup_iff (slots : Nat) (ids : Array Int) :
    (ids.toList.filter (IsSlot slots ·)).Nodup ↔ ∀ slot < slots, ∀ p q : Nat,
      ids[p]? = some (slot : Int) → ids[q]? = some (slot : Int) → p = q := by
  rw [List.Nodup, List.pairwise_filter, List.pairwise_iff_getElem]
  constructor
  · intro hpair slot hslot p q hp hq
    have hid : decide (IsSlot slots (slot : Int)) = true :=
      decide_eq_true ⟨Int.natCast_nonneg slot, by omega⟩
    obtain ⟨hpb, hpe⟩ := Array.getElem?_eq_some_iff.mp hp
    obtain ⟨hqb, hqe⟩ := Array.getElem?_eq_some_iff.mp hq
    have hnot : ∀ i j (hi : i < ids.size) (hj : j < ids.size),
        ids[i] = slot → ids[j] = slot → ¬ i < j := by
      intro i j hi hj hie hje hlt
      have hne := hpair i j hi hj hlt
      simp only [Array.getElem_toList, hie, hje] at hne
      exact hne hid hid rfl
    have hpq := hnot p q hpb hqb hpe hqe
    have hqp := hnot q p hqb hpb hqe hpe
    omega
  · intro honce i j hi hj hlt hslot hslot' heq
    have hslot : IsSlot slots ids.toList[i] := of_decide_eq_true hslot
    have hi : i < ids.size := hi
    have hj : j < ids.size := hj
    simp only [Array.getElem_toList] at hslot heq
    have hid : ids[i] = (ids[i].toNat : Int) := (Int.toNat_of_nonneg hslot.1).symm
    have hbound := hslot.2
    have hplace := honce ids[i].toNat (by omega) i j
      (by rw [Array.getElem?_eq_getElem hi, ← hid])
      (by rw [Array.getElem?_eq_getElem hj, ← hid, heq])
    omega

/-! ### Whole plans -/

/-- A vector that a plan can be read from. -/
structure IsIndexVector (t : Tensor) : Prop where
  rank : t.shape.length = 1
  index : t.element.isIndex = true

/-- A tensor is read as indices exactly if it is a vector of them. -/
theorem readIndices_eq_ok_iff (name : String) (t : Tensor) (values : Array Int) :
    readIndices name t = .ok values ↔ IsIndexVector t ∧ t.ints = values := by
  simp only [readIndices, error_bind, pure_eq_ok, throw_eq_error, refuse_eq_ok_iff, ne_eq, not_not,
    Bool.not_eq_true', Bool.not_eq_false, Except.ok.injEq]
  constructor
  · rintro ⟨hrank, hindex, hvalues⟩
    exact ⟨⟨hrank, hindex⟩, hvalues⟩
  · rintro ⟨h, hvalues⟩
    exact ⟨h.rank, h.index, hvalues⟩

/-- Two vectors that say which slots each expert works on. -/
structure Valid (sortedIds offsets : Tensor) (padded experts block slots : Nat) : Prop where
  ids_vector : IsIndexVector sortedIds
  offsets_vector : IsIndexVector offsets
  ids_size : sortedIds.ints.size = padded
  cuts : Cuts offsets.ints padded experts block
  nodup : (sortedIds.ints.toList.filter (IsSlot slots ·)).Nodup

/-- Routing is accepted exactly when it is valid, and then read with one padding number. -/
theorem load_eq_ok_iff (sortedIds offsets : Tensor) (padded experts block slots : Nat)
    (plan : Plan) : load sortedIds offsets padded experts block slots = .ok plan ↔
      Valid sortedIds offsets padded experts block slots ∧
        plan = ⟨sortedIds.ints.map (clean slots), offsets.ints.map Int.toNat⟩ := by
  simp only [load, error_bind, pure_eq_ok, throw_eq_error, bind_eq_ok_iff, refuse_eq_ok_iff,
    Except.ok.injEq, ne_eq, not_not, readIndices_eq_ok_iff, normalize_eq_ok_iff]
  constructor
  · rintro ⟨ids, ⟨hids, rfl⟩, hsize, bounds, ⟨hoffsets, rfl⟩, ⟨⟩, hcuts, out, ⟨hnodup, rfl⟩, rfl⟩
    exact ⟨⟨hids, hoffsets, hsize, (checkOffsets_eq_ok_iff ..).mp hcuts, hnodup⟩, rfl⟩
  · rintro ⟨h, rfl⟩
    exact ⟨_, ⟨h.ids_vector, rfl⟩, h.ids_size, _, ⟨h.offsets_vector, rfl⟩, (),
      (checkOffsets_eq_ok_iff ..).mpr h.cuts, _, ⟨h.nodup, rfl⟩, rfl⟩

/-- An expert works on a slot: some place between the expert's offsets names it. -/
def Serves (sortedIds offsets : Array Int) (expert slot : Nat) : Prop :=
  ∃ p : Nat, offsets.getD expert 0 ≤ p ∧ p < offsets.getD (expert + 1) 0 ∧
    sortedIds[p]? = some (slot : Int)

instance (sortedIds offsets : Array Int) (expert slot : Nat) :
    Decidable (Serves sortedIds offsets expert slot) :=
  decidable_of_iff (∃ p : Fin sortedIds.size, offsets.getD expert 0 ≤ (p : Nat) ∧
    ((p : Nat) : Int) < offsets.getD (expert + 1) 0 ∧ sortedIds[p.val]? = some (slot : Int)) <| by
    constructor
    · rintro ⟨p, hlow, hhigh, he⟩
      exact ⟨p, hlow, hhigh, he⟩
    · rintro ⟨p, hlow, hhigh, he⟩
      exact ⟨⟨p, (Array.getElem?_eq_some_iff.mp he).1⟩, hlow, hhigh, he⟩

variable {sortedIds offsets : Tensor} {padded experts block slots : Nat}

/-- No two places name the same slot. -/
theorem Valid.place_unique (h : Valid sortedIds offsets padded experts block slots) {slot : Nat}
    (hslot : slot < slots) {p q : Nat} (hp : sortedIds.ints[p]? = some (slot : Int))
    (hq : sortedIds.ints[q]? = some (slot : Int)) : p = q :=
  (nodup_iff ..).mp h.nodup slot hslot p q hp hq

/-- The places of an expert in the plan hold the slots that it serves. -/
theorem Valid.mem_segment_iff (h : Valid sortedIds offsets padded experts block slots)
    {expert slot : Nat} (hexpert : expert < experts) (hslot : slot < slots) :
    slot ∈ segment ⟨sortedIds.ints.map (clean slots), offsets.ints.map Int.toNat⟩ expert ↔
      Serves sortedIds.ints offsets.ints expert slot := by
  have hstart := h.cuts.natCast_getD (Nat.le_of_lt hexpert)
  have hend := h.cuts.natCast_getD (e := expert + 1) hexpert
  change slot ∈ (sortedIds.ints.map (clean slots)).extract
    ((offsets.ints.map Int.toNat).getD expert 0)
    ((offsets.ints.map Int.toNat).getD (expert + 1) 0) ↔ _
  rw [Array.mem_extract_iff_getElem]
  constructor
  · rintro ⟨k, hk, he⟩
    refine ⟨(offsets.ints.map Int.toNat).getD expert 0 + k, ?_, ?_, ?_⟩
    · omega
    · omega
    · rw [Array.size_map] at hk
      rw [Array.getElem_map, clean_eq_iff hslot] at he
      rw [Array.getElem?_eq_getElem (by omega), he]
  · rintro ⟨p, hlow, hhigh, he⟩
    obtain ⟨hp, he⟩ := Array.getElem?_eq_some_iff.mp he
    refine ⟨p - (offsets.ints.map Int.toNat).getD expert 0, ?_, ?_⟩
    · rw [Array.size_map]
      omega
    · have hplace : (offsets.ints.map Int.toNat).getD expert 0 +
          (p - (offsets.ints.map Int.toNat).getD expert 0) = p := by omega
      simp only [hplace, Array.getElem_map, he]
      exact (clean_eq_iff hslot _).mpr rfl

/-- A served slot is one of the sorted ids. -/
theorem Serves.mem {sortedIds offsets : Array Int} {expert slot : Nat}
    (h : Serves sortedIds offsets expert slot) : (slot : Int) ∈ sortedIds := by
  obtain ⟨p, _, _, hp⟩ := h
  exact Array.mem_of_getElem? hp

/-- Only an expert of the plan serves a slot. -/
theorem Valid.lt_experts (h : Valid sortedIds offsets padded experts block slots)
    {expert slot : Nat} (hs : Serves sortedIds.ints offsets.ints expert slot) :
    expert < experts := by
  obtain ⟨p, _, hhigh, _⟩ := hs
  have hsize := h.cuts.size_eq
  by_contra hle
  rw [Array.getD_eq_getD_getElem?, Array.getElem?_eq_none (by omega), Option.getD_none] at hhigh
  omega

/-- At most one expert serves a slot. -/
theorem Valid.expert_unique (h : Valid sortedIds offsets padded experts block slots)
    {e e' slot : Nat} (hslot : slot < slots)
    (hs : Serves sortedIds.ints offsets.ints e slot)
    (hs' : Serves sortedIds.ints offsets.ints e' slot) : e = e' := by
  have he := h.lt_experts hs
  have he' := h.lt_experts hs'
  obtain ⟨p, hlow, hhigh, hp⟩ := hs
  obtain ⟨q, hlow', hhigh', hq⟩ := hs'
  obtain rfl := h.place_unique hslot hp hq
  rcases Nat.lt_trichotomy e e' with hlt | heq | hgt
  · have hmono : offsets.ints.getD (e + 1) 0 ≤ offsets.ints.getD e' 0 :=
      h.cuts.mono hlt (by omega)
    omega
  · exact heq
  · have hmono : offsets.ints.getD (e' + 1) 0 ≤ offsets.ints.getD e 0 :=
      h.cuts.mono hgt (by omega)
    omega

/-- Every place lies between the offsets of some expert. -/
theorem Valid.exists_serves (h : Valid sortedIds offsets padded experts block slots) {slot : Nat}
    (hmem : (slot : Int) ∈ sortedIds.ints) :
    ∃ e < experts, Serves sortedIds.ints offsets.ints e slot := by
  obtain ⟨p, hp, he⟩ := Array.mem_iff_getElem.mp hmem
  have hlast : ¬ (offsets.ints.getD experts 0 ≤ p) := by
    rw [h.cuts.last, ← h.ids_size]
    omega
  have hfirst : offsets.ints.getD 0 0 ≤ p := by
    rw [h.cuts.first]
    omega
  -- the last expert that begins at or before the place
  obtain ⟨e, hlt, hlow, hhigh⟩ : ∃ e < experts, offsets.ints.getD e 0 ≤ p ∧
      ¬ (offsets.ints.getD (e + 1) 0 ≤ p) := by
    by_contra hnone
    have hall : ∀ e ≤ experts, offsets.ints.getD e 0 ≤ p := by
      intro e hle
      induction e with
      | zero => exact hfirst
      | succ e ih => exact by_contra fun hc => hnone ⟨e, by omega, ih (by omega), hc⟩
    exact hlast (hall experts (Nat.le_refl _))
  exact ⟨e, hlt, p, hlow, by omega, by rw [Array.getElem?_eq_getElem hp, he]⟩

end Plan

end RoutedExperts
