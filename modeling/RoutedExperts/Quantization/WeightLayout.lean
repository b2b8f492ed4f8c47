import RoutedExperts.Error

/-!
# The packed layout of a weight matrix

A matrix is cut into tiles of sixteen rows and columns. Each run of 1024 stored values, four tiles
side by side, is permuted as a whole, and then `packFactor` values at a time become one word, the
first in the lowest bits. `element` says which matrix element a stored position holds, `position` is
its inverse, and `pack` and `unpack` move the values along these two maps.
-/

namespace RoutedExperts

namespace WeightLayout

/-- Rows and columns of a tile. -/
def tile : Nat := 16

/-- Values that are permuted together. -/
def run : Nat := 1024

/-- The order of eight neighbouring values inside a word: even places first for four-bit values,
and pairs exchanged in the middle for wider ones. -/
def interleave (bits u : Nat) : Nat :=
  if bits = 4 then u % 4 * 2 + u / 4 else u / 4 * 4 + u % 2 * 2 + u / 2 % 2

/-- The inverse of `interleave`. -/
def deinterleave (bits v : Nat) : Nat :=
  if bits = 4 then v % 2 * 4 + v / 2 else v / 4 * 4 + v % 2 * 2 + v / 2 % 2

/-- The place in a run of four tiles of the value stored at place `j`. A lane `j / 32` owns two rows
and one column of each half tile. -/
def permutation (bits j : Nat) : Nat :=
  let lane := j / 32
  let u := interleave bits (j % 8)
  let row := 8 * (u / 2 % 2) + 2 * (lane % 4) + u % 2
  let column := 8 * (u / 4) + lane / 4
  256 * (j / 8 % 4) + 16 * row + column

/-- The inverse of `permutation`. -/
def inversePermutation (bits p : Nat) : Nat :=
  let row := p / 16 % 16
  let column := p % 16
  let lane := 4 * (column % 8) + row / 2 % 4
  32 * lane + 8 * (p / 256) + deinterleave bits (4 * (column / 8) + 2 * (row / 8) + row % 2)

/-- The row-major index of the matrix element at a place of the tiled order. -/
def untile (columns place : Nat) : Nat :=
  let band := columns * tile
  let rest := place % band
  let inTile := rest % (tile * tile)
  let row := place / band * tile + inTile / tile
  let column := rest / (tile * tile) * tile + inTile % tile
  row * columns + column

/-- The place in the tiled order of the matrix element with a row-major index. -/
def retile (columns index : Nat) : Nat :=
  let row := index / columns
  let column := index % columns
  row / tile * (columns * tile) + column / tile * (tile * tile) + row % tile * tile + column % tile

/-- The row-major index of the matrix element at a stored position. -/
def element (bits columns position : Nat) : Nat :=
  untile columns (position / run * run + permutation bits (position % run))

/-- The stored position of a matrix element. -/
def position (bits columns index : Nat) : Nat :=
  let place := retile columns index
  place / run * run + inversePermutation bits (place % run)

/-- Values of the given width in one word, the first in the lowest bits; what exceeds the width is
dropped. -/
def joinFields (bits : Nat) (fields : List Nat) : Nat :=
  let base := twoTo bits
  fields.foldr (fun field word => field % base + base * word) 0

/-- The value at place `t` of a word. -/
def field (bits word t : Nat) : Nat := word >>> (bits * t) % twoTo bits

/-- The words of a packed matrix. -/
def packedSize (rows columns : Nat) (type : WeightType) : Nat := rows * columns / type.packFactor

/-- Refuses a matrix that does not divide into runs of tiles. -/
def checkTiles (rows columns : Nat) : Except Error Unit :=
  if rows % tile ≠ 0 then .error (.tileRows rows)
  else if columns % 64 ≠ 0 then .error (.tileColumns columns)
  else .ok ()

/-- The words that hold the values of a matrix, given in row-major order. -/
def packWords (type : WeightType) (rows columns : Nat) (values : Array UInt32) : Array UInt32 :=
  Array.ofFn fun w : Fin (packedSize rows columns type) =>
    (joinFields type.bits <| (List.range type.packFactor).map fun t =>
      (values.getD (element type.bits columns (w * type.packFactor + t)) 0).toNat).toUInt32

/-- The values of a matrix in row-major order, read from its words. -/
def unpackWords (type : WeightType) (rows columns : Nat) (words : Array UInt32) : Array UInt32 :=
  Array.ofFn fun i : Fin (rows * columns) =>
    let p := position type.bits columns i
    (field type.bits (words.getD (p / type.packFactor) 0).toNat (p % type.packFactor)).toUInt32

/-- Packs the row-major values of a matrix. -/
def pack (values : Array UInt32) (rows columns : Nat) (type : WeightType) :
    Except Error (Array UInt32) := do
  checkTiles rows columns
  if values.size ≠ rows * columns then throw (.valueCount rows columns values.size)
  return packWords type rows columns values

/-- Reads the row-major values of a packed matrix. -/
def unpack (words : Array UInt32) (rows columns : Nat) (type : WeightType) :
    Except Error (Array UInt32) := do
  checkTiles rows columns
  let expected := packedSize rows columns type
  if words.size ≠ expected then throw (.wordCount expected rows columns words.size)
  return unpackWords type rows columns words

end WeightLayout

end RoutedExperts
