import RoutedExperts.Proofs.Checks
import RoutedExperts.Proofs.Index
import RoutedExperts.Proofs.Numeric.Powers
import RoutedExperts.Quantization.WeightLayout

/-!
# The packed layout loses nothing

Every element of a matrix of whole tiles has a stored position of its own: `element_position` leads
from an element to its position and back. Together with `field_joinFields`, which reads a value back
out of its word, unpacking what was packed gives every value back, cut to the width of the weight
type (`unpackWords_packWords_mask`).
-/

namespace RoutedExperts

namespace WeightType

/-- The types that store a step count with a bias are the ones a width stands for. -/
theorem symmetric?_eq_some_iff (bits : Nat) (type : WeightType) :
    symmetric? bits = some type ↔ type.hasZeroPoint = false ∧ type.bits = bits := by
  unfold symmetric?
  split
  · cases type <;> decide
  · cases type <;> decide
  · rename_i h4 h8
    cases type
    · exact ⟨nofun, fun h => absurd h.2.symm h4⟩
    · exact ⟨nofun, fun h => absurd h.2.symm h8⟩
    · exact ⟨nofun, nofun⟩
    · exact ⟨nofun, nofun⟩

/-- A word holds eight values or four. -/
theorem packFactor_mem (type : WeightType) : type.packFactor = 8 ∨ type.packFactor = 4 := by
  cases type <;> simp [packFactor, bits]

theorem packFactor_pos (type : WeightType) : 0 < type.packFactor := by
  cases type <;> decide

/-- The values of a word share its bits evenly. -/
theorem bits_eq_div_packFactor (type : WeightType) : 32 / type.packFactor = type.bits := by
  cases type <;> rfl

/-- The values of a word fill it. -/
theorem bits_mul_packFactor (type : WeightType) : type.bits * type.packFactor = 32 := by
  cases type <;> rfl

/-- The mask cuts a word to the width of a weight. -/
theorem toNat_and_mask (type : WeightType) (v : UInt32) :
    (v &&& type.mask.toUInt32).toNat = v.toNat % twoTo type.bits := by
  have hfour : v.toNat &&& 15 = v.toNat % 16 := Nat.and_two_pow_sub_one_eq_mod v.toNat 4
  have height : v.toNat &&& 255 = v.toNat % 256 := Nat.and_two_pow_sub_one_eq_mod v.toNat 8
  rw [UInt32.toNat_and]
  cases type with
  | uint4b8 => exact hfour
  | uint4 => exact hfour
  | uint8b128 => exact height
  | uint8 => exact height

end WeightType

namespace WeightLayout

/-! ### Places in a run -/

/-- Taking a place in a word apart and putting it together gives the place. -/
theorem interleave_deinterleave (bits : Nat) {v : Nat} (hv : v < 8) :
    interleave bits (deinterleave bits v) = v := by
  have hfour : ∀ v < 8, interleave 4 (deinterleave 4 v) = v := by decide
  have height : ∀ v < 8, interleave 8 (deinterleave 8 v) = v := by decide
  by_cases hb : bits = 4
  · subst bits
    exact hfour v hv
  · have h := height v hv
    simpa only [interleave, deinterleave, hb, Nat.reduceEqDiff, ite_false] using h

/-- Taking apart a place in a word stays among eight. -/
theorem deinterleave_lt (bits : Nat) {v : Nat} (hv : v < 8) : deinterleave bits v < 8 := by
  unfold deinterleave
  split <;> omega

-- A place in a run has a tile, a row and a column. Lanes own two rows out of each half of a tile
-- and one column of each half, so a row has three digits and a column two.
private theorem place_digits {t row column : Nat} (hr : row < 16) (hc : column < 16) :
    (256 * t + 16 * row + column) / 256 = t ∧ (256 * t + 16 * row + column) / 16 % 16 = row ∧
      (256 * t + 16 * row + column) % 16 = column := by
  omega

private theorem row_digits {a b c : Nat} (hb : b < 4) (hc : c < 2) :
    (8 * a + 2 * b + c) / 8 = a ∧ (8 * a + 2 * b + c) / 2 % 4 = b ∧
      (8 * a + 2 * b + c) % 2 = c := by
  omega

private theorem column_digits {d l : Nat} (hl : l < 8) :
    (8 * d + l) / 8 = d ∧ (8 * d + l) % 8 = l := by
  omega

private theorem lane_digits {l b : Nat} (hb : b < 4) :
    (4 * l + b) / 4 = l ∧ (4 * l + b) % 4 = b := by
  omega

private theorem unit_digits {a c d : Nat} (ha : a < 2) (hc : c < 2) :
    (4 * d + 2 * a + c) / 4 = d ∧ (4 * d + 2 * a + c) / 2 % 2 = a ∧
      (4 * d + 2 * a + c) % 2 = c := by
  omega

private theorem stored_digits {m t v : Nat} (ht : t < 4) (hv : v < 8) :
    (32 * m + 8 * t + v) / 32 = m ∧ (32 * m + 8 * t + v) / 8 % 4 = t ∧
      (32 * m + 8 * t + v) % 8 = v := by
  omega

private theorem exists_digits {p : Nat} (hp : p < run) :
    ∃ t < 4, ∃ a < 2, ∃ b < 4, ∃ c < 2, ∃ d < 2, ∃ l < 8,
      p = 256 * t + 16 * (8 * a + 2 * b + c) + (8 * d + l) := by
  unfold run at hp
  exact ⟨p / 256, by omega, p / 128 % 2, by omega, p / 32 % 4, by omega, p / 16 % 2, by omega,
    p / 8 % 2, by omega, p % 8, by omega, by omega⟩

/-- Where the value of a place is stored, digit by digit. -/
private theorem inversePermutation_digits (bits : Nat) {t a b c d l : Nat} (ha : a < 2)
    (hb : b < 4) (hc : c < 2) (hd : d < 2) (hl : l < 8) :
    inversePermutation bits (256 * t + 16 * (8 * a + 2 * b + c) + (8 * d + l)) =
      32 * (4 * l + b) + 8 * t + deinterleave bits (4 * d + 2 * a + c) := by
  have hrow : 8 * a + 2 * b + c < 16 := by omega
  have hcolumn : 8 * d + l < 16 := by omega
  obtain ⟨htile, hrow, hcolumn⟩ := place_digits (t := t) hrow hcolumn
  obtain ⟨hhigh, hmiddle, hlow⟩ := row_digits (a := a) hb hc
  obtain ⟨hhalf, hlane⟩ := column_digits (d := d) hl
  simp only [inversePermutation, htile, hrow, hcolumn, hhigh, hmiddle, hlow, hhalf, hlane]

/-- The place of a stored value, digit by digit. -/
private theorem permutation_digits (bits : Nat) {t v a b c d l : Nat} (ht : t < 4) (hv : v < 8)
    (ha : a < 2) (hb : b < 4) (hc : c < 2) (hu : interleave bits v = 4 * d + 2 * a + c) :
    permutation bits (32 * (4 * l + b) + 8 * t + v) =
      256 * t + 16 * (8 * a + 2 * b + c) + (8 * d + l) := by
  obtain ⟨hstored, htile, hunit⟩ := stored_digits (m := 4 * l + b) ht hv
  obtain ⟨hlane, hmiddle⟩ := lane_digits (l := l) hb
  obtain ⟨hhalf, hhigh, hlow⟩ := unit_digits (d := d) ha hc
  simp only [permutation, hstored, htile, hunit, hu, hlane, hmiddle, hhalf, hhigh, hlow]

/-- The order of a run undoes its inverse. -/
theorem permutation_inversePermutation (bits : Nat) {p : Nat} (hp : p < run) :
    permutation bits (inversePermutation bits p) = p := by
  obtain ⟨t, ht, a, ha, b, hb, c, hc, d, hd, l, hl, rfl⟩ := exists_digits hp
  have hu : 4 * d + 2 * a + c < 8 := by omega
  rw [inversePermutation_digits bits ha hb hc hd hl,
    permutation_digits bits ht (deinterleave_lt bits hu) ha hb hc (interleave_deinterleave bits hu)]

/-- The inverse order keeps places in the run. -/
theorem inversePermutation_lt (bits : Nat) {p : Nat} (hp : p < run) :
    inversePermutation bits p < run := by
  obtain ⟨t, ht, a, ha, b, hb, c, hc, d, hd, l, hl, rfl⟩ := exists_digits hp
  have hv := deinterleave_lt bits (show 4 * d + 2 * a + c < 8 by omega)
  rw [inversePermutation_digits bits ha hb hc hd hl, run]
  omega

/-! ### Tiles -/

/-- A matrix that divides into runs of four tiles. -/
structure Tiled (rows columns : Nat) : Prop where
  rows_mod : rows % tile = 0
  columns_mod : columns % 64 = 0

/-- A matrix whose sides are multiples of 64 consists of tiles. -/
theorem tiled_of_granules {rows columns : Nat} (hrows : rows % 64 = 0)
    (hcolumns : columns % 64 = 0) : Tiled rows columns := by
  refine ⟨?_, hcolumns⟩
  rw [tile]
  omega

/-- The check for tiles accepts exactly the matrices that consist of them. -/
theorem checkTiles_eq_ok_iff (rows columns : Nat) :
    checkTiles rows columns = .ok () ↔ Tiled rows columns := by
  simp only [checkTiles, refuse_eq_ok_iff, ne_eq, not_not, and_true]
  exact ⟨fun h => ⟨h.1, h.2⟩, fun h => ⟨h.rows_mod, h.columns_mod⟩⟩

/-- The places of a band of tiles, tile by tile. -/
theorem inBand_lt {columns column r : Nat} (hcolumns : columns % 64 = 0)
    (hc : column < columns) (hr : r < 16) :
    column / 16 * 256 + (r * 16 + column % 16) < columns * 16 := by
  omega

/-- Going to the order of tiles and back gives the place in the matrix. -/
theorem untile_retile {rows columns i : Nat} (h : Tiled rows columns) (hi : i < rows * columns) :
    untile columns (retile columns i) = i := by
  have hpos : 0 < columns := Nat.pos_of_lt_mul_left hi
  have hc : i % columns < columns := Nat.mod_lt i hpos
  have hr : i / columns % 16 < 16 := Nat.mod_lt _ (by decide)
  have hband := inBand_lt h.columns_mod hc hr
  have hplace : retile columns i = i / columns / 16 * (columns * 16) +
      (i % columns / 16 * 256 + (i / columns % 16 * 16 + i % columns % 16)) := by
    simp only [retile, tile, Nat.add_assoc]
  have hlast : i % columns % 16 < 16 := Nat.mod_lt _ (by decide)
  have htile : i / columns % 16 * 16 + i % columns % 16 < 16 * 16 := rowMajor_lt hr hlast
  rw [hplace]
  simp only [untile, tile, rowMajor_div _ hband, rowMajor_mod _ hband]
  rw [rowMajor_div _ htile, rowMajor_mod _ htile, rowMajor_div _ hlast, rowMajor_mod _ hlast,
    div_mul_add_mod, div_mul_add_mod, div_mul_add_mod]

/-- The order of tiles keeps places in the matrix. -/
theorem retile_lt {rows columns i : Nat} (h : Tiled rows columns) (hi : i < rows * columns) :
    retile columns i < rows * columns := by
  have hpos : 0 < columns := Nat.pos_of_lt_mul_left hi
  have hrow : i / columns / 16 < rows / 16 := by
    have hr : i / columns < rows := Nat.div_lt_of_lt_mul (by rwa [Nat.mul_comm])
    have hmod : rows % 16 = 0 := h.rows_mod
    omega
  have hband := inBand_lt h.columns_mod (Nat.mod_lt i hpos)
    (Nat.mod_lt (i / columns) (by decide : 0 < 16))
  have hbands : rows / 16 * (columns * 16) = rows * columns := by
    have hmod : rows / 16 * 16 = rows := Nat.div_mul_cancel (Nat.dvd_of_mod_eq_zero h.rows_mod)
    rw [Nat.mul_comm columns, ← Nat.mul_assoc, hmod]
  have hlt := rowMajor_lt hrow hband
  rw [hbands] at hlt
  simpa only [retile, tile, Nat.add_assoc] using hlt

/-! ### Stored positions -/

/-- The element at the stored position of an element is that element. -/
theorem element_position (bits : Nat) {rows columns i : Nat} (h : Tiled rows columns)
    (hi : i < rows * columns) : element bits columns (position bits columns i) = i := by
  have hp : retile columns i % run < run := Nat.mod_lt _ (by decide)
  simp only [element, position, rowMajor_div _ (inversePermutation_lt bits hp),
    rowMajor_mod _ (inversePermutation_lt bits hp), permutation_inversePermutation bits hp,
    div_mul_add_mod]
  exact untile_retile h hi

/-- Elements of a matrix are stored among as many positions. -/
theorem position_lt (bits : Nat) {rows columns i : Nat} (h : Tiled rows columns)
    (hi : i < rows * columns) : position bits columns i < rows * columns := by
  have hp : retile columns i % run < run := Nat.mod_lt _ (by decide)
  have hruns : rows * columns / run * run = rows * columns := by
    have hdvd : 16 * 64 ∣ rows * columns := Nat.mul_dvd_mul
      (Nat.dvd_of_mod_eq_zero h.rows_mod) (Nat.dvd_of_mod_eq_zero h.columns_mod)
    exact Nat.div_mul_cancel hdvd
  have hrun : retile columns i / run < rows * columns / run := by
    apply Nat.div_lt_of_lt_mul
    rw [Nat.mul_comm, hruns]
    exact retile_lt h hi
  have hlt := rowMajor_lt hrun (inversePermutation_lt bits hp)
  rwa [hruns] at hlt

/-! ### Words -/

/-- A value is read back from its place in a word, cut to the width of a field. -/
theorem field_joinFields (bits : Nat) (fields : List Nat) {t : Nat} (ht : t < fields.length) :
    field bits (joinFields bits fields) t = fields[t] % twoTo bits := by
  have hpos := twoTo_pos bits
  induction fields generalizing t with
  | nil => simp only [List.length_nil, Nat.not_lt_zero] at ht
  | cons first rest ih =>
    have hjoin : joinFields bits (first :: rest) =
        first % twoTo bits + twoTo bits * joinFields bits rest := rfl
    have hlow : first % twoTo bits < twoTo bits := Nat.mod_lt _ hpos
    cases t with
    | zero =>
      rw [field, hjoin, Nat.mul_zero, Nat.shiftRight_zero, Nat.add_mul_mod_self_left,
        Nat.mod_mod, List.getElem_cons_zero]
    | succ t =>
      have hrest : (first % twoTo bits + twoTo bits * joinFields bits rest) / twoTo bits =
          joinFields bits rest := by
        rw [Nat.add_mul_div_left _ _ hpos, Nat.div_eq_of_lt hlow, Nat.zero_add]
      have hshift : bits * (t + 1) = bits + bits * t := by rw [Nat.mul_succ, Nat.add_comm]
      have ht : t < rest.length := by simpa only [List.length_cons, Nat.succ_lt_succ_iff] using ht
      rw [field, hjoin, shiftRight_eq_div_twoTo, hshift, twoTo_add, ← Nat.div_div_eq_div_mul,
        hrest, ← shiftRight_eq_div_twoTo, List.getElem_cons_succ, ← ih ht, field]

/-- Joined fields fill no more bits than they have. -/
theorem joinFields_lt (bits : Nat) (fields : List Nat) :
    joinFields bits fields < twoTo (bits * fields.length) := by
  have hpos := twoTo_pos bits
  induction fields with
  | nil => exact Nat.one_pos
  | cons first rest ih =>
    have hjoin : joinFields bits (first :: rest) =
        first % twoTo bits + twoTo bits * joinFields bits rest := rfl
    have hlow : first % twoTo bits < twoTo bits := Nat.mod_lt _ hpos
    rw [hjoin, List.length_cons, Nat.mul_succ, twoTo_add, Nat.add_comm, Nat.mul_comm]
    exact rowMajor_lt ih hlow

/-! ### Packed matrices -/

/-- The words of a band of tiles fill it, whatever the weight type. -/
theorem packedRow_mul_packFactor {columns : Nat} (h : columns % 64 = 0) (type : WeightType) :
    columns * tile / type.packFactor * type.packFactor =
      columns * tile := by
  rcases type.packFactor_mem with hf | hf <;> rw [hf, tile] <;> omega

/-- The words of a matrix of whole tiles fill it, whatever the weight type. -/
theorem packedSize_mul_packFactor {rows columns : Nat} (h : Tiled rows columns)
    (type : WeightType) : packedSize rows columns type * type.packFactor = rows * columns := by
  have hdvd : type.packFactor ∣ rows * columns := by
    apply Nat.dvd_mul_left_of_dvd
    apply Nat.dvd_of_mod_eq_zero
    have hmod := h.columns_mod
    rcases type.packFactor_mem with hf | hf <;> rw [hf] <;> omega
  exact Nat.div_mul_cancel hdvd

/-- A matrix has as many words as its bands of tiles together. -/
theorem packedSize_eq_bands {rows columns : Nat} (h : Tiled rows columns) (type : WeightType) :
    rows / tile * (columns * tile / type.packFactor) = packedSize rows columns type := by
  have hrows : rows / tile * tile = rows := Nat.div_mul_cancel (Nat.dvd_of_mod_eq_zero h.rows_mod)
  apply Nat.eq_of_mul_eq_mul_right type.packFactor_pos
  calc rows / tile * (columns * tile / type.packFactor) * type.packFactor
      = rows / tile * (columns * tile) := by
        rw [Nat.mul_assoc, packedRow_mul_packFactor h.columns_mod]
    _ = rows / tile * tile * columns := by rw [Nat.mul_comm columns, Nat.mul_assoc]
    _ = packedSize rows columns type * type.packFactor := by
        rw [hrows, packedSize_mul_packFactor h]

/-- Unpacking succeeds exactly on the words of a matrix of tiles, with the values of these words. -/
theorem unpack_eq_ok_iff (words : Array UInt32) (rows columns : Nat) (type : WeightType)
    (values : Array UInt32) : unpack words rows columns type = .ok values ↔
      Tiled rows columns ∧ words.size = packedSize rows columns type ∧
        unpackWords type rows columns words = values := by
  simp only [unpack, error_bind, pure_eq_ok, throw_eq_error, bind_eq_ok_iff, refuse_eq_ok_iff,
    ne_eq, not_not, Except.ok.injEq]
  constructor
  · rintro ⟨⟨⟩, htiles, h⟩
    exact ⟨(checkTiles_eq_ok_iff ..).mp htiles, h⟩
  · rintro ⟨htiles, h⟩
    exact ⟨(), (checkTiles_eq_ok_iff ..).mpr htiles, h⟩

/-- Packing succeeds exactly on the values of a matrix of tiles, with the words of these values. -/
theorem pack_eq_ok_iff (values : Array UInt32) (rows columns : Nat) (type : WeightType)
    (words : Array UInt32) : pack values rows columns type = .ok words ↔
      Tiled rows columns ∧ values.size = rows * columns ∧
        packWords type rows columns values = words := by
  simp only [pack, error_bind, pure_eq_ok, throw_eq_error, bind_eq_ok_iff, refuse_eq_ok_iff,
    ne_eq, not_not, Except.ok.injEq]
  constructor
  · rintro ⟨⟨⟩, htiles, h⟩
    exact ⟨(checkTiles_eq_ok_iff ..).mp htiles, h⟩
  · rintro ⟨htiles, h⟩
    exact ⟨(), (checkTiles_eq_ok_iff ..).mpr htiles, h⟩

/-- A packed matrix has the words that its shape and type say. -/
theorem size_packWords (type : WeightType) (rows columns : Nat) (values : Array UInt32) :
    (packWords type rows columns values).size = packedSize rows columns type :=
  Array.size_ofFn

/-- The words of a packed matrix hold every value at its stored position. -/
theorem field_packWords {type : WeightType} {rows columns : Nat} (h : Tiled rows columns)
    (values : Array UInt32) {p : Nat} (hp : p < rows * columns) :
    field type.bits ((packWords type rows columns values).getD (p / type.packFactor) 0).toNat
        (p % type.packFactor) =
      (values.getD (element type.bits columns p) 0).toNat % twoTo type.bits := by
  have hword : p / type.packFactor < packedSize rows columns type := by
    apply Nat.div_lt_of_lt_mul
    rwa [Nat.mul_comm, packedSize_mul_packFactor h]
  have hplace : p % type.packFactor < type.packFactor := Nat.mod_lt _ type.packFactor_pos
  generalize hfields : (List.range type.packFactor).map (fun t =>
    (values.getD (element type.bits columns (p / type.packFactor * type.packFactor + t)) 0).toNat)
      = fields
  have hlength : fields.length = type.packFactor := by
    rw [← hfields, List.length_map, List.length_range]
  have hfit : joinFields type.bits fields < 4294967296 := by
    have hlt := joinFields_lt type.bits fields
    rwa [hlength, type.bits_mul_packFactor] at hlt
  have hstored : ((packWords type rows columns values).getD (p / type.packFactor) 0).toNat =
      joinFields type.bits fields := by
    rw [packWords, getD_ofFn _ hword, hfields, Nat.toUInt32_eq, UInt32.toNat_ofNat_of_lt' hfit]
  rw [hstored, field_joinFields type.bits fields (hlength ▸ hplace)]
  simp only [← hfields, List.getElem_map, List.getElem_range, div_mul_add_mod]

/-- Packed values are read back, cut to the width of the weight type. -/
theorem unpackWords_packWords_mask {type : WeightType} {rows columns : Nat}
    (h : Tiled rows columns) {values : Array UInt32} (hsize : values.size = rows * columns) :
    unpackWords type rows columns (packWords type rows columns values) =
      values.map (· &&& type.mask.toUInt32) := by
  apply Array.ext
  · rw [unpackWords, Array.size_ofFn, Array.size_map, hsize]
  intro i hi hvalue
  have hvalue : i < values.size := by rwa [Array.size_map] at hvalue
  have hi : i < rows * columns := by rwa [hsize] at hvalue
  simp only [unpackWords, Array.getElem_ofFn, Array.getElem_map]
  rw [field_packWords h values (position_lt _ h hi), element_position _ h hi,
    ← Array.getElem_eq_getD (h := hvalue), ← type.toNat_and_mask]
  exact UInt32.ofNat_toNat

/-- Packed values are read back, if they fit the weight type. -/
theorem unpackWords_packWords {type : WeightType} {rows columns : Nat} (h : Tiled rows columns)
    {values : Array UInt32} (hsize : values.size = rows * columns)
    (hfit : ∀ i < rows * columns, (values.getD i 0).toNat < twoTo type.bits) :
    unpackWords type rows columns (packWords type rows columns values) = values := by
  rw [unpackWords_packWords_mask h hsize]
  apply Array.ext
  · rw [Array.size_map]
  intro i _ hvalue
  have hvalueFits := hfit i (by rwa [hsize] at hvalue)
  rw [← Array.getElem_eq_getD (h := hvalue)] at hvalueFits
  rw [Array.getElem_map]
  apply UInt32.toNat_inj.mp
  rw [type.toNat_and_mask, Nat.mod_eq_of_lt hvalueFits]

end WeightLayout

end RoutedExperts
