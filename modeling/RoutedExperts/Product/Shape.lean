import RoutedExperts.Quantization.Support
import RoutedExperts.Routing.Block

/-!
# The sizes of a grouped product

A grouped product multiplies a row of activations into the weights of an expert, once for each slot
of each token.
-/

namespace RoutedExperts

/-- The sizes and switches of a grouped product. -/
structure ProductShape where
  tokens : Nat
  /-- Columns of the weights, the features a product yields. -/
  columns : Nat
  /-- Rows of the weights, the features a product takes. -/
  rows : Nat
  /-- Places of the routing, padding included. -/
  padded : Nat
  experts : Nat
  /-- Slots per token. -/
  chosen : Nat
  block : Nat
  /-- Whether all slots of a token read the same row of activations. -/
  replicated : Bool
  /-- Whether the product of a slot is multiplied by the slot's weight. -/
  weighted : Bool
  deriving DecidableEq, Repr

namespace ProductShape

/-- The number of slots. -/
def slots (s : ProductShape) : Nat := s.tokens * s.chosen

/-- The rows of the activations. -/
def activationRows (s : ProductShape) : Nat := if s.replicated then s.tokens else s.slots

/-- The row of the activations that a slot reads. -/
def activationRow (s : ProductShape) (slot : Nat) : Nat :=
  if s.replicated then slot / s.chosen else slot

/-- Where the rows of activations begin in the workspace. -/
def rowStart (s : ProductShape) : Nat := s.rows * s.columns

/-- Where the rows of products begin in the workspace. -/
def productStart (s : ProductShape) : Nat := s.rows * s.columns + s.block * s.rows

/-- Refuses sizes that no product can have. -/
def check (s : ProductShape) : Except Error Unit := do
  if s.tokens = 0 ∨ s.columns = 0 ∨ s.rows = 0 then
    throw (.emptyProduct s.tokens s.columns s.rows)
  if s.experts = 0 then throw .noExperts
  if s.chosen = 0 then throw .noSlots
  Block.check s.block
  Support.checkShape s.columns s.rows (-1)

end ProductShape

end RoutedExperts
