import RoutedExperts.Proofs.Quantization.RoundTrip

/-!
# The field of an entry

A packed matrix keeps every entry in one field of one word. `ownField` names it: the word lies in
the band of tiles that the entry's row belongs to (`ownField_band`), and no two entries share a
field (`ownField_inj`). Bit by bit, a word of a packed matrix is made of its entries' lowest bits
(`testBit_packWords`), so replacing an entry rewrites its own field and leaves every other bit of
the packed matrix as it was (`packWords_set`).
-/

namespace RoutedExperts

namespace WeightLayout

/-- A field of a packed matrix: the word, and the place among the fields of the word. -/
structure FieldPlace where
  word : Nat
  place : Nat
  deriving DecidableEq, Repr

/-- The field that keeps the entry at row `k` and column `n`. -/
def ownField (type : WeightType) (columns k n : Nat) : FieldPlace where
  word := position type.bits columns (k * columns + n) / type.packFactor
  place := position type.bits columns (k * columns + n) % type.packFactor

/-- A word in which one field is overwritten by the lowest bits of a value. -/
def setField (type : WeightType) (word : UInt32) (place : Nat) (v : UInt32) : UInt32 :=
  let shift := (type.bits * place).toUInt32
  (word &&& ~~~(type.mask.toUInt32 <<< shift)) ||| ((v &&& type.mask.toUInt32) <<< shift)

/-! ### Bands of tiles -/

/-- Tiles are laid out band by band. -/
theorem retile_div_band {rows columns i : Nat} (h : Tiled rows columns) (hi : i < rows * columns) :
    retile columns i / (columns * tile) = i / columns / tile := by
  have hband := inBand_lt h.columns_mod (row_lt_column_lt hi).2
    (Nat.mod_lt (i / columns) (by decide : 0 < 16))
  have hplace : retile columns i = i / columns / 16 * (columns * 16) +
      (i % columns / 16 * 256 + (i / columns % 16 * 16 + i % columns % 16)) := by
    simp only [retile, tile, Nat.add_assoc]
  rw [hplace, tile, rowMajor_div _ hband]

/-- Values are permuted inside their band of tiles, which is made of whole runs. -/
theorem position_div_band (bits : Nat) {rows columns i : Nat} (h : Tiled rows columns)
    (hi : i < rows * columns) :
    position bits columns i / (columns * tile) = i / columns / tile := by
  have hruns : columns * tile = run * (columns / 64) := by
    have hmod := h.columns_mod
    rw [tile, run]
    omega
  have hrun : position bits columns i / run = retile columns i / run :=
    rowMajor_div _ (inversePermutation_lt bits (Nat.mod_lt _ (by decide)))
  rw [← retile_div_band h hi, hruns, ← Nat.div_div_eq_div_mul, hrun, Nat.div_div_eq_div_mul]

section OwnField

variable {type : WeightType} {rows columns k n : Nat}

/-- The field of an entry is one of those of a word. -/
theorem ownField_place_lt (type : WeightType) (columns k n : Nat) :
    (ownField type columns k n).place < type.packFactor :=
  Nat.mod_lt _ type.packFactor_pos

/-- The word of an entry is one of those of the packed matrix. -/
theorem ownField_word_lt (h : Tiled rows columns) (hk : k < rows) (hn : n < columns) :
    (ownField type columns k n).word < packedSize rows columns type := by
  apply Nat.div_lt_of_lt_mul
  rw [Nat.mul_comm type.packFactor, packedSize_mul_packFactor h]
  exact position_lt type.bits h (rowMajor_lt hk hn)

/-- The words of an entry's band of tiles hold the entry. -/
theorem ownField_band (h : Tiled rows columns) (hk : k < rows) (hn : n < columns) :
    (ownField type columns k n).word / (columns * tile / type.packFactor) = k / tile := by
  rw [ownField, Nat.div_div_eq_div_mul, Nat.mul_comm type.packFactor,
    packedRow_mul_packFactor h.columns_mod, position_div_band _ h (rowMajor_lt hk hn),
    rowMajor_div _ hn]

/-- The stored position of an entry is that of its field. -/
theorem ownField_position (type : WeightType) (columns k n : Nat) :
    (ownField type columns k n).word * type.packFactor + (ownField type columns k n).place =
      position type.bits columns (k * columns + n) :=
  div_mul_add_mod _ _

/-- A place of a word holds an entry exactly if it is the entry's field. -/
theorem element_eq_iff_ownField (h : Tiled rows columns) (hk : k < rows) (hn : n < columns)
    {w t : Nat} (hw : w < packedSize rows columns type) (ht : t < type.packFactor) :
    element type.bits columns (w * type.packFactor + t) = k * columns + n ↔
      w = (ownField type columns k n).word ∧ t = (ownField type columns k n).place := by
  have hp : w * type.packFactor + t < rows * columns := by
    rw [← packedSize_mul_packFactor h type]
    exact rowMajor_lt hw ht
  constructor
  · intro helement
    simp only [ownField, ← helement, position_element _ h hp, rowMajor_div w ht,
      rowMajor_mod w ht, and_self]
  · rintro ⟨rfl, rfl⟩
    rw [ownField_position, element_position _ h (rowMajor_lt hk hn)]

/-- No two entries share a field. -/
theorem ownField_inj (h : Tiled rows columns) {k' n' : Nat} (hk : k < rows) (hn : n < columns)
    (hk' : k' < rows) (hn' : n' < columns)
    (heq : ownField type columns k n = ownField type columns k' n') : k = k' ∧ n = n' := by
  have hposition : position type.bits columns (k * columns + n) =
      position type.bits columns (k' * columns + n') := by
    rw [← ownField_position, heq, ownField_position]
  have hindex : k * columns + n = k' * columns + n' := by
    rw [← element_position type.bits h (rowMajor_lt hk hn), hposition,
      element_position type.bits h (rowMajor_lt hk' hn')]
  constructor
  · rw [← rowMajor_div k hn, hindex, rowMajor_div k' hn']
  · rw [← rowMajor_mod k hn, hindex, rowMajor_mod k' hn']

end OwnField

/-! ### Bits of words -/

/-- A remainder by a power of two keeps the bits below it. -/
theorem testBit_mod_twoTo (x bits i : Nat) :
    (x % twoTo bits).testBit i = (decide (i < bits) && x.testBit i) := by
  rw [twoTo, Nat.one_shiftLeft, Nat.testBit_mod_two_pow]

/-- The bits of a field are bits of the word. -/
theorem testBit_field (bits word t : Nat) {i : Nat} (hi : i < bits) :
    (field bits word t).testBit i = word.testBit (bits * t + i) := by
  rw [field, testBit_mod_twoTo, Nat.testBit_shiftRight, decide_eq_true hi, Bool.true_and]

/-- Bit `j` of a packed word is a bit of the entry that the field around it belongs to. -/
theorem testBit_packWords {type : WeightType} {rows columns : Nat} (h : Tiled rows columns)
    (values : Array UInt32) {w j : Nat} (hw : w < packedSize rows columns type) (hj : j < 32) :
    ((packWords type rows columns values).getD w 0).toNat.testBit j =
      (values.getD (element type.bits columns
        (w * type.packFactor + j / type.bits)) 0).toNat.testBit (j % type.bits) := by
  have hbit : j % type.bits < type.bits := Nat.mod_lt _ (by cases type <;> decide)
  have hplace : j / type.bits < type.packFactor := by
    apply Nat.div_lt_of_lt_mul
    rwa [type.bits_mul_packFactor]
  have hp : w * type.packFactor + j / type.bits < rows * columns := by
    rw [← packedSize_mul_packFactor h type]
    exact rowMajor_lt hw hplace
  have hfield : field type.bits ((packWords type rows columns values).getD _ 0).toNat _ = _ :=
    field_packWords h values hp
  rw [rowMajor_div _ hplace, rowMajor_mod _ hplace] at hfield
  have hread := congrArg (Nat.testBit · (j % type.bits)) hfield
  simpa only [testBit_field _ _ _ hbit, testBit_mod_twoTo, hbit, decide_true, Bool.true_and,
    Nat.div_add_mod] using hread

/-- The mask of a type has the bits of one value. -/
theorem testBit_mask (type : WeightType) (i : Nat) :
    type.mask.toUInt32.toNat.testBit i = decide (i < type.bits) := by
  have hfour : (15 : Nat).testBit i = decide (i < 4) := Nat.testBit_two_pow_sub_one 4 i
  have height : (255 : Nat).testBit i = decide (i < 8) := Nat.testBit_two_pow_sub_one 8 i
  cases type with
  | uint4b8 => exact hfour
  | uint4 => exact hfour
  | uint8b128 => exact height
  | uint8 => exact height

theorem testBit_not (x : UInt32) {j : Nat} (hj : j < 32) :
    (~~~x).toNat.testBit j = !x.toNat.testBit j := by
  change (~~~x).toBitVec.getLsbD j = !x.toBitVec.getLsbD j
  rw [UInt32.toBitVec_not, BitVec.getLsbD_not, decide_eq_true hj, Bool.true_and]

/-- A shift to the left moves every bit up and fills in zeros. -/
theorem testBit_shiftLeft (x : UInt32) {shift j : Nat} (hshift : shift < 32) (hj : j < 32) :
    (x <<< shift.toUInt32).toNat.testBit j =
      (decide (shift ≤ j) && x.toNat.testBit (j - shift)) := by
  have hword : shift.toUInt32.toNat = shift :=
    UInt32.toNat_ofNat_of_lt' (Nat.lt_trans hshift (by decide))
  rw [UInt32.toNat_shiftLeft, hword, Nat.mod_eq_of_lt hshift, Nat.testBit_mod_two_pow,
    decide_eq_true hj, Bool.true_and, Nat.testBit_shiftLeft]

/-- Overwriting a field replaces its bits and keeps all others. -/
theorem testBit_setField (type : WeightType) (word v : UInt32) {place j : Nat}
    (hplace : place < type.packFactor) (hj : j < 32) :
    (setField type word place v).toNat.testBit j =
      if j / type.bits = place then v.toNat.testBit (j % type.bits) else word.toNat.testBit j := by
  have hpos : 0 < type.bits := by cases type <;> decide
  have hshift : type.bits * place < 32 := by
    rw [← type.bits_mul_packFactor]
    exact Nat.mul_lt_mul_of_pos_left hplace hpos
  have hsplit := Nat.div_add_mod j type.bits
  have hrest := Nat.mod_lt j hpos
  simp only [setField, UInt32.toNat_or, UInt32.toNat_and, Nat.testBit_or, Nat.testBit_and,
    testBit_not _ hj, testBit_shiftLeft _ hshift hj, testBit_mask]
  by_cases hfield : j / type.bits = place
  · subst hfield
    have hlow : type.bits * (j / type.bits) ≤ j := by omega
    have hinside : j - type.bits * (j / type.bits) = j % type.bits := by omega
    simp [hlow, hinside, hrest]
  · -- a bit of another field lies before the field or behind it
    have houtside : ¬ (type.bits * place ≤ j ∧ j - type.bits * place < type.bits) := by
      rintro ⟨hlow, hhigh⟩
      apply hfield
      rw [Nat.div_eq_iff hpos, Nat.mul_comm place]
      omega
    by_cases hlow : type.bits * place ≤ j
    · have hhigh : ¬ j - type.bits * place < type.bits := fun hlt => houtside ⟨hlow, hlt⟩
      simp [hfield, hlow, hhigh]
    · simp [hfield, hlow]

/-! ### Replacing an entry -/

/-- Words with the same 32 bits are equal. -/
theorem eq_of_testBit_eq {x y : UInt32}
    (h : ∀ j < 32, x.toNat.testBit j = y.toNat.testBit j) : x = y := by
  apply UInt32.toNat_inj.mp
  apply Nat.eq_of_testBit_eq
  intro j
  by_cases hj : j < 32
  · exact h j hj
  · have hpow : 2 ^ 32 ≤ 2 ^ j := Nat.pow_le_pow_right (by decide) (Nat.le_of_not_lt hj)
    rw [Nat.testBit_lt_two_pow (Nat.lt_of_lt_of_le x.toNat_lt hpow),
      Nat.testBit_lt_two_pow (Nat.lt_of_lt_of_le y.toNat_lt hpow)]

/-- A write in range is read where it was made and nowhere else. -/
theorem getD_setIfInBounds {xs : Array UInt32} {i : Nat} (hi : i < xs.size) (v : UInt32) (j : Nat)
    (d : UInt32) : (xs.setIfInBounds i v).getD j d = if j = i then v else xs.getD j d := by
  rw [Array.getD_eq_getD_getElem?, Array.getElem?_setIfInBounds, Array.getD_eq_getD_getElem?]
  by_cases hj : j = i
  · rw [if_pos hj.symm, if_pos hj, if_pos (hj ▸ hi), Option.getD_some]
  · rw [if_neg (Ne.symm hj), if_neg hj]

/-- Replacing an entry overwrites its field. -/
theorem packWords_set {type : WeightType} {rows columns k n : Nat} (h : Tiled rows columns)
    {values : Array UInt32} (hsize : values.size = rows * columns) (hk : k < rows)
    (hn : n < columns) (v : UInt32) :
    packWords type rows columns (values.setIfInBounds (k * columns + n) v) =
      (packWords type rows columns values).setIfInBounds (ownField type columns k n).word
        (setField type
          ((packWords type rows columns values).getD (ownField type columns k n).word 0)
          (ownField type columns k n).place v) := by
  have hindex := rowMajor_lt hk hn
  apply Array.ext
  · rw [Array.size_setIfInBounds, size_packWords, size_packWords]
  intro w hw hw'
  have hword : w < packedSize rows columns type := by rwa [size_packWords] at hw
  have hold : w < (packWords type rows columns values).size := by rwa [size_packWords]
  rw [Array.getElem_setIfInBounds hold, Array.getElem_eq_getD (h := hw) 0]
  apply eq_of_testBit_eq
  intro j hj
  have hplace : j / type.bits < type.packFactor := by
    apply Nat.div_lt_of_lt_mul
    rwa [type.bits_mul_packFactor]
  have hread := testBit_packWords h values hword hj
  rw [testBit_packWords h _ hword hj, getD_setIfInBounds (hsize ▸ hindex)]
  by_cases hown : w = (ownField type columns k n).word ∧
      j / type.bits = (ownField type columns k n).place
  · rw [if_pos ((element_eq_iff_ownField h hk hn hword hplace).mpr hown), if_pos hown.1.symm,
      testBit_setField type _ v (ownField_place_lt ..) hj, if_pos hown.2]
  · rw [if_neg fun helement => hown ((element_eq_iff_ownField h hk hn hword hplace).mp helement),
      ← hread]
    by_cases hsame : w = (ownField type columns k n).word
    · rw [if_pos hsame.symm, testBit_setField type _ v (ownField_place_lt ..) hj,
        if_neg fun ht => hown ⟨hsame, ht⟩, hsame]
    · rw [if_neg (Ne.symm hsame), Array.getElem_eq_getD (h := hold) 0]

/-- On matrices of whole tiles, every entry has a field of its own in its band of tiles, and
replacing the entry overwrites this field and nothing else. -/
theorem pack_set_ownField (type : WeightType) {rows columns : Nat} (hrows : rows % 16 = 0)
    (hcolumns : columns % 64 = 0) :
    (∀ values : Array UInt32, values.size = rows * columns →
      ∀ k < rows, ∀ n < columns, ∀ v : UInt32, ∃ words,
        pack values rows columns type = .ok words ∧
        pack (values.setIfInBounds (k * columns + n) v) rows columns type =
          .ok (words.setIfInBounds (ownField type columns k n).word
            (setField type (words.getD (ownField type columns k n).word 0)
              (ownField type columns k n).place v))) ∧
    (∀ k < rows, ∀ n < columns,
      (ownField type columns k n).word < rows / 16 * (columns * 16 / type.packFactor) ∧
      (ownField type columns k n).word / (columns * 16 / type.packFactor) = k / 16 ∧
      (ownField type columns k n).place < type.packFactor) ∧
    ∀ k < rows, ∀ n < columns, ∀ k' < rows, ∀ n' < columns,
      ownField type columns k n = ownField type columns k' n' → k = k' ∧ n = n' := by
  have h : Tiled rows columns := ⟨hrows, hcolumns⟩
  refine ⟨?_, ?_, ?_⟩
  · intro values hsize k hk n hn v
    refine ⟨packWords type rows columns values, (pack_eq_ok_iff ..).mpr ⟨h, hsize, rfl⟩, ?_⟩
    refine (pack_eq_ok_iff ..).mpr ⟨h, ?_, packWords_set h hsize hk hn v⟩
    rw [Array.size_setIfInBounds, hsize]
  · intro k hk n hn
    have hword : (ownField type columns k n).word < _ := ownField_word_lt h hk hn
    rw [← packedSize_eq_bands h] at hword
    exact ⟨hword, ownField_band h hk hn, ownField_place_lt ..⟩
  · intro k hk n hn k' hk' n' hn'
    exact ownField_inj h hk hn hk' hn'

/-- The values of two bands of eight tiles. -/
def bandValues : Array UInt32 := Array.ofFn fun i : Fin 4096 => (29 * i.val).toUInt32

/-- In a matrix of two bands, replacing an entry of the second one changes a field there and no
other word. -/
theorem pack_set_ownField_bandValues :
    32 % 16 = 0 ∧ 128 % 64 = 0 ∧ bandValues.size = 32 * 128 ∧
      ownField .uint4 128 21 100 = ⟨458, 4⟩ ∧ 458 / (128 * 16 / 8) = 21 / 16 ∧
      ∃ words, pack bandValues 32 128 .uint4 = .ok words ∧
        pack (bandValues.setIfInBounds (21 * 128 + 100) 41) 32 128 .uint4 =
          .ok (words.setIfInBounds 458 (setField .uint4 (words.getD 458 0) 4 41)) := by
  have hfield : ownField .uint4 128 21 100 = ⟨458, 4⟩ := by decide
  have hsize : bandValues.size = 32 * 128 := Array.size_ofFn
  obtain ⟨hset, hplace, _⟩ := pack_set_ownField .uint4 (rfl : 32 % 16 = 0) (rfl : 128 % 64 = 0)
  obtain ⟨words, hwords, hagain⟩ := hset bandValues hsize 21 (by decide) 100 (by decide) 41
  obtain ⟨_, hband, _⟩ := hplace 21 (by decide) 100 (by decide)
  rw [hfield] at hagain hband
  exact ⟨rfl, rfl, hsize, hfield, hband, words, hwords, hagain⟩

end WeightLayout

end RoutedExperts
