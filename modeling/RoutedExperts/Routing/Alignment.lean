import RoutedExperts.Routing.Block

/-!
# Grouping slots by expert

Each token has one slot per chosen expert, numbered in row-major order. `Alignment.ofIds` groups the
slots by expert in one pass over them, keeps their order inside a group, fills every group up to
whole blocks with a number that is no slot, and lays the groups end to end. A slot whose expert does
not exist is left out. A grouping is handed on as three vectors of 32-bit words.
-/

namespace RoutedExperts

/-- Slots grouped by expert in whole blocks. -/
structure Alignment where
  /-- The groups end to end; a padding place holds the number of slots. -/
  sortedIds : Array Nat
  /-- The expert of each block. -/
  blockExperts : Array Nat
  /-- Where each group begins, and last where the groups end. -/
  offsets : Array Nat
  /-- The number of slots, padding apart. -/
  slots : Nat
  deriving DecidableEq, Repr

namespace Alignment

/-- The number of places after padding. -/
def padded (a : Alignment) : Nat := a.sortedIds.size

/-- The expert that an id names, if there is one. -/
def expert? (experts : Nat) (id : Int) : Option Nat :=
  if 0 ≤ id ∧ id < experts then some id.toNat else none

/-- The slots of each expert in increasing order. -/
def buckets (experts : Nat) (ids : Array Int) : Array (Array Nat) :=
  ids.zipIdx.foldl (fun groups (id, slot) =>
    match expert? experts id with
    | some e => groups.modify e (·.push slot)
    | none => groups) (Array.replicate experts #[])

/-- The places that `count` slots take in whole blocks. -/
def paddedCount (block count : Nat) : Nat := Block.divUp count block * block

/-- A group filled up to whole blocks. -/
def pad (block filler : Nat) (group : Array Nat) : Array Nat :=
  group ++ Array.replicate (paddedCount block group.size - group.size) filler

/-- Where each group begins, and last where the groups end. -/
def boundaries (sizes : Array Nat) : Array Nat :=
  sizes.foldl (fun bounds size => bounds.push (bounds.back?.getD 0 + size)) #[0]

/-- Groups the slots of the given expert ids. -/
def ofIds (block experts : Nat) (ids : Array Int) : Alignment :=
  let groups := (buckets experts ids).map (pad block ids.size)
  { sortedIds := groups.flatten
    blockExperts := groups.zipIdx.flatMap fun (group, e) => Array.replicate (group.size / block) e
    offsets := boundaries (groups.map Array.size)
    slots := ids.size }

/-- Groups the slots of a tensor of expert ids of shape `[tokens, chosen]`. -/
def ofTensor (ids : Tensor) (block experts : Nat) : Except Error Alignment :=
  if block = 0 ∨ experts = 0 then .error (.alignment block experts)
  else match ids.shape with
    | [_, _] => .ok (ofIds block experts ids.ints)
    | shape => .error (.rank 2 shape)

/-- A vector of words; of a number that is wider than a word the low bits are kept. -/
def wordVector (values : Array Nat) : Tensor :=
  Tensor.ofWords [values.size] (values.map (·.toUInt32))

/-- The grouped slots as a tensor. -/
def idTensor (a : Alignment) : Tensor := wordVector a.sortedIds

/-- The experts of the blocks as a tensor. -/
def expertTensor (a : Alignment) : Tensor := wordVector a.blockExperts

/-- The group boundaries as a tensor. -/
def offsetTensor (a : Alignment) : Tensor := wordVector a.offsets

end Alignment

end RoutedExperts
