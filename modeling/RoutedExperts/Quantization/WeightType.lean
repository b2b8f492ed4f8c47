import RoutedExperts.Numeric.Format

/-!
# Packed weight types

A weight is stored as a small unsigned integer, eight or four of them to a 32-bit word. The
symmetric types store a signed step count with a bias added; the other two have no bias and are
meant to come with a zero point.
-/

namespace RoutedExperts

/-- How a weight is stored. -/
inductive WeightType where
  | uint4b8 | uint8b128 | uint4 | uint8
  deriving DecidableEq, Repr, Inhabited

namespace WeightType

/-- The name of a weight type in settings and messages. -/
def name : WeightType → String
  | uint4b8 => "uint4b8"
  | uint8b128 => "uint8b128"
  | uint4 => "uint4"
  | uint8 => "uint8"

/-- The weight type of a name. -/
def ofName? (s : String) : Option WeightType :=
  [uint4b8, uint8b128, uint4, uint8].find? (·.name == s)

/-- Bits of a stored weight. -/
def bits : WeightType → Nat
  | uint4b8 | uint4 => 4
  | uint8b128 | uint8 => 8

/-- Whether stored weights come with a zero point in place of a bias. -/
def hasZeroPoint : WeightType → Bool
  | uint4 | uint8 => true
  | uint4b8 | uint8b128 => false

/-- What is added to a step count before it is stored. -/
def bias : WeightType → Nat
  | uint4b8 => 8
  | uint8b128 => 128
  | uint4 | uint8 => 0

/-- The weights in one 32-bit word. -/
def packFactor (t : WeightType) : Nat := 32 / t.bits

/-- The largest stored weight. -/
def mask (t : WeightType) : Nat := twoTo t.bits - 1

/-- The largest step count. -/
def highest (t : WeightType) : Int := t.mask - t.bias

/-- The least step count. -/
def lowest (t : WeightType) : Int := -t.bias

/-- The symmetric type of the given width. -/
def symmetric? : Nat → Option WeightType
  | 4 => some uint4b8
  | 8 => some uint8b128
  | _ => none

end WeightType

end RoutedExperts
