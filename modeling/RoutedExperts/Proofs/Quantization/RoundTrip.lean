import Mathlib.Data.Fintype.EquivFin
import RoutedExperts.Proofs.Quantization.WeightLayout

/-!
# Packing and unpacking undo each other

Stored positions and matrix elements are as many, so the map that leads from an element to its
position and back leads from a position to its element and back as well (`position_element`). A word
is made of its fields (`joinFields_field`). Together they say that packing is also undone from the
other side: the words of a matrix are packed again from the values that are read from them. For the
same reason a loop over the words that writes every value at its element leaves the matrix that is
read element by element (`getElem?_foldValues`).
-/

namespace RoutedExperts

/-- A one-sided inverse of a map of the numbers below `n` to themselves is its inverse. -/
theorem inverse_of_rightInverse {n : Nat} {f g : Nat → Nat} (hg : ∀ i < n, g i < n)
    (hfg : ∀ i < n, f (g i) = i) {p : Nat} (hp : p < n) : f p < n ∧ g (f p) = p := by
  let place : Fin n → Fin n := fun i => ⟨g i, hg i i.isLt⟩
  have hinjective : Function.Injective place := by
    intro i j hij
    have hvalue : g i = g j := congrArg Fin.val hij
    apply Fin.ext
    rw [← hfg i i.isLt, ← hfg j j.isLt, hvalue]
  obtain ⟨i, hi⟩ := Finite.injective_iff_surjective.mp hinjective ⟨p, hp⟩
  have hplace : g i = p := congrArg Fin.val hi
  rw [← hplace, hfg i i.isLt]
  exact ⟨i.isLt, rfl⟩

/-- A loop of writes keeps the size of the array. -/
theorem size_foldl_setIfInBounds {α : Type} (target : Nat → Nat) (value : Nat → α)
    (places : List Nat) (out : Array α) :
    (places.foldl (fun out p => out.setIfInBounds (target p) (value p)) out).size = out.size := by
  induction places generalizing out with
  | nil => rfl
  | cons p places ih => rw [List.foldl_cons, ih, Array.size_setIfInBounds]

section

variable {α : Type} {n : Nat} {target source : Nat → Nat}
  (htarget : ∀ p < n, target p < n ∧ source (target p) = p)
  (hsource : ∀ i < n, source i < n ∧ target (source i) = i)

include htarget hsource

/-- After `count` writes of a loop to places of their own, the places whose source comes earlier are
written. -/
theorem getElem?_foldl_setIfInBounds_of_le (value : Nat → α) (out : Array α) (i : Nat) {count : Nat}
    (hle : count ≤ n) :
    ((List.range count).foldl (fun out p => out.setIfInBounds (target p) (value p)) out)[i]? =
      if (i < n ∧ source i < count) ∧ i < out.size then some (value (source i)) else out[i]? := by
  induction count with
  | zero => exact (if_neg (by omega)).symm
  | succ count ih =>
    obtain ⟨hlt, hback⟩ := htarget count hle
    rw [List.range_succ, List.foldl_append, List.foldl_cons, List.foldl_nil,
      Array.getElem?_setIfInBounds, size_foldl_setIfInBounds, ih (by omega)]
    by_cases hi : target count = i
    · subst hi
      rw [if_pos rfl, hback]
      by_cases hbound : target count < out.size
      · rw [if_pos hbound, if_pos ⟨⟨hlt, Nat.lt_succ_self count⟩, hbound⟩]
      · rw [if_neg hbound, if_neg (fun h => hbound h.2), Array.getElem?_eq_none (by omega)]
    · have hother : i < n → source i ≠ count := by
        intro hlt hsource'
        exact hi (hsource' ▸ (hsource i hlt).2)
      have hsame : (i < n ∧ source i < count + 1) ↔ (i < n ∧ source i < count) := by
        constructor <;> rintro ⟨hlt, h⟩ <;> have := hother hlt <;> omega
      rw [if_neg hi]
      simp only [hsame]

/-- A loop of writes to places of their own: place `i` holds what the loop wrote when it came to
`source i`, and the places from `n` on keep what they held. -/
theorem getElem?_foldl_setIfInBounds (value : Nat → α) (out : Array α) (i : Nat) :
    ((List.range n).foldl (fun out p => out.setIfInBounds (target p) (value p)) out)[i]? =
      if i < n ∧ i < out.size then some (value (source i)) else out[i]? := by
  have hall : (i < n ∧ source i < n) ↔ i < n := ⟨And.left, fun h => ⟨h, (hsource i h).1⟩⟩
  rw [getElem?_foldl_setIfInBounds_of_le htarget hsource value out i (Nat.le_refl n)]
  simp only [hall]

end

namespace WeightLayout

/-! ### Stored positions -/

/-- The entry at a stored position is one of the matrix. -/
theorem element_lt (bits : Nat) {rows columns p : Nat} (h : Tiled rows columns)
    (hp : p < rows * columns) : element bits columns p < rows * columns :=
  (inverse_of_rightInverse (fun _ hi => position_lt bits h hi)
    (fun _ hi => element_position bits h hi) hp).1

/-- The stored position of the element at a position is that position. -/
theorem position_element (bits : Nat) {rows columns p : Nat} (h : Tiled rows columns)
    (hp : p < rows * columns) : position bits columns (element bits columns p) = p :=
  (inverse_of_rightInverse (fun _ hi => position_lt bits h hi)
    (fun _ hi => element_position bits h hi) hp).2

/-! ### Words -/

/-- A field has no more bits than its width. -/
theorem field_lt (bits word t : Nat) : field bits word t < twoTo bits :=
  Nat.mod_lt _ (twoTo_pos bits)

/-- The later fields of a word are the fields of the word without its lowest one. -/
theorem field_succ (bits word t : Nat) :
    field bits word (t + 1) = field bits (word / twoTo bits) t := by
  rw [field, field, shiftRight_eq_div_twoTo, shiftRight_eq_div_twoTo, Nat.mul_succ, Nat.add_comm,
    twoTo_add, Nat.div_div_eq_div_mul]

/-- A word is made of its fields, as far as they reach. -/
theorem joinFields_field (bits word count : Nat) :
    joinFields bits ((List.range count).map (field bits word)) = word % twoTo (bits * count) := by
  induction count generalizing word with
  | zero => exact (Nat.mod_one word).symm
  | succ count ih =>
    have hlow : field bits word 0 % twoTo bits = word % twoTo bits := by
      rw [field, Nat.mul_zero, Nat.shiftRight_zero, Nat.mod_mod]
    have hrest : (List.range count).map (field bits word ∘ Nat.succ) =
        (List.range count).map (field bits (word / twoTo bits)) := by
      apply List.map_congr_left
      intro t _
      exact field_succ bits word t
    have hjoin : joinFields bits (field bits word 0 ::
        (List.range count).map (field bits (word / twoTo bits))) =
          field bits word 0 % twoTo bits + twoTo bits *
            joinFields bits ((List.range count).map (field bits (word / twoTo bits))) := rfl
    rw [List.range_succ_eq_map, List.map_cons, List.map_map, hrest, hjoin, ih, hlow, Nat.mul_succ,
      Nat.add_comm (bits * count), twoTo_add, Nat.mod_mul]

/-! ### Packed matrices -/

/-- A field fits a word. -/
theorem toNat_field (type : WeightType) (word t : Nat) :
    (field type.bits word t).toUInt32.toNat = field type.bits word t := by
  have hword : twoTo type.bits < 4294967296 := by cases type <;> decide
  exact UInt32.toNat_ofNat_of_lt' (Nat.lt_trans (field_lt type.bits word t) hword)

/-- The element at a stored position is read from the word of the position. -/
theorem getD_unpackWords_element {type : WeightType} {rows columns : Nat} (h : Tiled rows columns)
    (words : Array UInt32) {p : Nat} (hp : p < rows * columns) :
    ((unpackWords type rows columns words).getD (element type.bits columns p) 0).toNat =
      field type.bits (words.getD (p / type.packFactor) 0).toNat (p % type.packFactor) := by
  rw [unpackWords, getD_ofFn _ (element_lt _ h hp), position_element _ h hp, toNat_field]

/-- A loop over the values of packed words in the order in which they are stored. Each value comes
with the matrix element that it belongs to. -/
def foldValues {α : Type} (type : WeightType) (columns : Nat) (words : Array UInt32)
    (visit : α → Nat → UInt32 → α) (start : α) : α :=
  (List.range words.size).foldl (fun a w =>
    (List.range type.packFactor).foldl (fun a t =>
      visit a (element type.bits columns (w * type.packFactor + t))
        (field type.bits (words.getD w 0).toNat t).toUInt32) a) start

/-- Writing something for every value at its element leaves at each element what was written for the
value that is read from there, whatever was in these places before. -/
theorem getElem?_foldValues {α : Type} {type : WeightType} {rows columns : Nat}
    (h : Tiled rows columns) {words : Array UInt32}
    (hsize : words.size = packedSize rows columns type) (value : Nat → UInt32 → α)
    (out : Array α) (i : Nat) :
    (foldValues type columns words (fun out i v => out.setIfInBounds i (value i v)) out)[i]? =
      if i < rows * columns ∧ i < out.size then
        some (value i ((unpackWords type rows columns words).getD i 0))
      else out[i]? := by
  have hloop : foldValues type columns words (fun out i v => out.setIfInBounds i (value i v)) out =
      (List.range (rows * columns)).foldl (fun out p =>
        out.setIfInBounds (element type.bits columns p) (value (element type.bits columns p)
          (field type.bits (words.getD (p / type.packFactor) 0).toNat
            (p % type.packFactor)).toUInt32)) out := by
    rw [foldValues, hsize, ← packedSize_mul_packFactor h type, foldl_range_mul]
    apply List.foldl_ext
    intro out w _
    apply List.foldl_ext
    intro out t ht
    have ht : t < type.packFactor := List.mem_range.mp ht
    rw [rowMajor_div w ht, rowMajor_mod w ht]
  rw [hloop, getElem?_foldl_setIfInBounds
    (fun p hp => ⟨element_lt type.bits h hp, position_element type.bits h hp⟩)
    (fun i hi => ⟨position_lt type.bits h hi, element_position type.bits h hi⟩)
    (fun p => value (element type.bits columns p)
      (field type.bits (words.getD (p / type.packFactor) 0).toNat
        (p % type.packFactor)).toUInt32)]
  by_cases hi : i < rows * columns
  · rw [element_position type.bits h hi, unpackWords, getD_ofFn _ hi]
  · rw [if_neg (fun hplace => hi hplace.1), if_neg (fun hplace => hi hplace.1)]

/-- The values of a matrix are what the loop over its words writes. -/
theorem unpackWords_eq_foldValues {type : WeightType} {rows columns : Nat} (h : Tiled rows columns)
    {words : Array UInt32} (hsize : words.size = packedSize rows columns type) :
    unpackWords type rows columns words = foldValues type columns words
      (fun out i v => out.setIfInBounds i v) (Array.replicate (rows * columns) 0) := by
  apply Array.ext_getElem?
  intro i
  rw [getElem?_foldValues h hsize fun _ v => v]
  simp only [Array.size_replicate, and_self]
  have hvalues : (unpackWords type rows columns words).size = rows * columns := Array.size_ofFn
  by_cases hi : i < rows * columns
  · rw [if_pos hi, getElem?_eq_some_getD (by rwa [hvalues])]
  · rw [if_neg hi, Array.getElem?_eq_none (by rw [hvalues]; omega),
      Array.getElem?_eq_none (by rw [Array.size_replicate]; omega)]

/-- The values that are read from the words of a matrix are packed into these words. -/
theorem packWords_unpackWords {type : WeightType} {rows columns : Nat} (h : Tiled rows columns)
    {words : Array UInt32} (hsize : words.size = packedSize rows columns type) :
    packWords type rows columns (unpackWords type rows columns words) = words := by
  apply Array.ext
  · rw [size_packWords, hsize]
  intro w _ hw
  have hword : w < packedSize rows columns type := by rwa [hsize] at hw
  have hfields : ((List.range type.packFactor).map fun t =>
      ((unpackWords type rows columns words).getD
        (element type.bits columns (w * type.packFactor + t)) 0).toNat) =
      (List.range type.packFactor).map (field type.bits words[w].toNat) := by
    apply List.map_congr_left
    intro t ht
    have ht : t < type.packFactor := List.mem_range.mp ht
    have hp : w * type.packFactor + t < rows * columns := by
      rw [← packedSize_mul_packFactor h type]
      exact rowMajor_lt hword ht
    rw [getD_unpackWords_element h words hp, rowMajor_div w ht, rowMajor_mod w ht,
      ← Array.getElem_eq_getD (h := hw)]
  have hfull : words[w].toNat < twoTo 32 := words[w].toNat_lt
  simp only [packWords, Array.getElem_ofFn, hfields]
  rw [joinFields_field, type.bits_mul_packFactor, Nat.mod_eq_of_lt hfull]
  exact UInt32.ofNat_toNat

/-- Unpacked values are within the mask of their type. -/
theorem toNat_le_mask_of_mem_unpackWords {type : WeightType} {rows columns : Nat}
    {words : Array UInt32} {v : UInt32} (hv : v ∈ unpackWords type rows columns words) :
    v.toNat ≤ type.mask := by
  obtain ⟨i, hi, rfl⟩ := Array.mem_iff_getElem.mp hv
  simp only [unpackWords, Array.getElem_ofFn]
  rw [toNat_field]
  exact Nat.le_sub_one_of_lt (field_lt ..)

/-- On matrices of whole tiles, packing keeps what fits the weight type, and unpacking loses
nothing. -/
theorem pack_unpack_inverse (type : WeightType) {rows columns : Nat} (hrows : rows % 16 = 0)
    (hcolumns : columns % 64 = 0) :
    (∀ values : Array UInt32, values.size = rows * columns →
      ∃ words, pack values rows columns type = .ok words ∧
        words.size = packedSize rows columns type ∧
        unpack words rows columns type = .ok (values.map (· &&& type.mask.toUInt32)) ∧
        ((∀ v ∈ values, v.toNat ≤ type.mask) → unpack words rows columns type = .ok values)) ∧
    ∀ words : Array UInt32, words.size = packedSize rows columns type →
      ∃ values, unpack words rows columns type = .ok values ∧ values.size = rows * columns ∧
        (∀ v ∈ values, v.toNat ≤ type.mask) ∧ pack values rows columns type = .ok words := by
  have h : Tiled rows columns := ⟨hrows, hcolumns⟩
  constructor
  · intro values hsize
    refine ⟨packWords type rows columns values, (pack_eq_ok_iff ..).mpr ⟨h, hsize, rfl⟩,
      size_packWords .., ?_, ?_⟩
    · exact (unpack_eq_ok_iff ..).mpr ⟨h, size_packWords .., unpackWords_packWords_mask h hsize⟩
    · intro hfit
      refine (unpack_eq_ok_iff ..).mpr ⟨h, size_packWords .., unpackWords_packWords h hsize ?_⟩
      intro i hi
      have hvalue : i < values.size := by rwa [hsize]
      have hmask : type.mask < twoTo type.bits := Nat.sub_one_lt_of_lt (twoTo_pos type.bits)
      rw [Array.getD_eq_getD_getElem?, Array.getElem?_eq_getElem hvalue, Option.getD_some]
      exact Nat.lt_of_le_of_lt (hfit _ (Array.getElem_mem hvalue)) hmask
  · intro words hsize
    exact ⟨unpackWords type rows columns words, (unpack_eq_ok_iff ..).mpr ⟨h, hsize, rfl⟩,
      Array.size_ofFn, fun _ => toNat_le_mask_of_mem_unpackWords,
      (pack_eq_ok_iff ..).mpr ⟨h, Array.size_ofFn, packWords_unpackWords h hsize⟩⟩

/-- The values of one run of four tiles, most of them wider than a weight. -/
def sampleValues : Array UInt32 := Array.ofFn fun i : Fin 1024 => (37 * i.val).toUInt32

/-- Values with bits above the mask are packed, unpacked without these bits, and packed to the same
words again. -/
theorem pack_unpack_inverse_sampleValues :
    16 % 16 = 0 ∧ 64 % 64 = 0 ∧ sampleValues.size = 16 * 64 ∧
      ∃ words, pack sampleValues 16 64 .uint4 = .ok words ∧ words.size = 128 ∧
        unpack words 16 64 .uint4 = .ok (sampleValues.map (· &&& 15)) ∧
        pack (sampleValues.map (· &&& 15)) 16 64 .uint4 = .ok words := by
  have hsize : sampleValues.size = 16 * 64 := Array.size_ofFn
  obtain ⟨hpack, hunpack⟩ := pack_unpack_inverse .uint4 (rfl : 16 % 16 = 0) (rfl : 64 % 64 = 0)
  obtain ⟨words, hwords, hcount, hread, _⟩ := hpack sampleValues hsize
  obtain ⟨values, hvalues, _, _, hagain⟩ := hunpack words hcount
  rw [hread, Except.ok.injEq] at hvalues
  subst hvalues
  exact ⟨rfl, rfl, hsize, words, hwords, hcount, hread, hagain⟩

end WeightLayout

end RoutedExperts
