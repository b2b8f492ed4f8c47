import RoutedExperts.Error

/-!
# What the packed formats support

The conditions on weight type, group size, device capability and matrix shape under which weights
can be packed, and the group size that a count of scale groups implies.
-/

namespace RoutedExperts

namespace Support

/-- The group sizes with a packed format; `-1` is one group per column. -/
def groupSizes : List Int := [-1, 32, 64, 128]

/-- The least capability of a device, where one is known. -/
def minimumCapability : Nat := 80

/-- Rows and columns of a packed matrix are multiples of this. -/
def granule : Nat := 64

/-- Whether weights of this type and group size can be packed. An unknown capability is no
obstacle. -/
def admits (type : WeightType) (groupSize : Int) (zeroPoint : Bool) (capability : Option Nat) :
    Bool :=
  let level := capability.getD 0
  let types : List WeightType := if zeroPoint then [.uint4] else [.uint4b8, .uint8b128]
  !(0 < level && level < minimumCapability) && types.contains type && groupSizes.contains groupSize

/-- Refuses a matrix whose extents do not divide into granules and groups. -/
def checkShape (columns rows : Nat) (groupSize : Int) : Except Error Unit :=
  if columns % granule ≠ 0 then .error (.columnsUneven columns)
  else if rows % granule ≠ 0 then .error (.rowsUneven rows)
  else if 0 < groupSize ∧ rows % groupSize.toNat ≠ 0 then .error (.groupUneven rows groupSize)
  else .ok ()

/-- The group size of `groups` equal groups of rows, as a signed 32-bit number. A single group is
per-column scaling. -/
def groupSizeOfCount (rows groups : Nat) : Except Error Int :=
  if groups = 0 ∨ rows % groups ≠ 0 then .error (.groupCount rows groups)
  else if groups = 1 then .ok (-1)
  else .ok (Int.bmod (rows / groups : Nat) (twoTo 32))

end Support

end RoutedExperts
