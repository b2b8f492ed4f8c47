import RoutedExperts.Error

/-!
# Checked routing

A grouped product is told by two integer vectors which slots each expert works on. `Plan.load`
accepts them when the groups lie end to end in whole blocks and no slot occurs twice, and replaces
everything that is no slot by one padding number.
-/

namespace RoutedExperts

/-- Checked routing of a grouped product. -/
structure Plan where
  /-- Slots by expert; a padding place holds the number of slots. -/
  ids : Array Nat
  /-- Where each expert's places begin, and last where they end. -/
  offsets : Array Nat
  deriving DecidableEq, Repr

namespace Plan

/-- The places of one expert. -/
def segment (p : Plan) (expert : Nat) : Array Nat :=
  p.ids.extract (p.offsets.getD expert 0) (p.offsets.getD (expert + 1) 0)

/-- The integers of an index vector. -/
def readIndices (name : String) (t : Tensor) : Except Error (Array Int) := do
  if t.shape.length ≠ 1 then throw (.indexRank name t.shape)
  if !t.element.isIndex then throw (.indexElement name t.element)
  return t.ints

/-- The first expert whose end lies before its beginning, with the two offsets. -/
def decrease? (offsets : Array Int) : Option (Nat × Int × Int) :=
  (List.range (offsets.size - 1)).findSome? fun e =>
    let before := offsets.getD e 0
    let after := offsets.getD (e + 1) 0
    if after < before then some (e, before, after) else none

/-- Refuses offsets that do not cut the places into whole blocks, expert by expert. -/
def checkOffsets (offsets : Array Int) (padded experts block : Nat) : Except Error Unit := do
  if offsets.size ≠ experts + 1 then throw (.offsetCount offsets.size (experts + 1))
  if offsets.getD 0 0 ≠ 0 then throw (.offsetStart (offsets.getD 0 0))
  if offsets.getD experts 0 ≠ padded then throw (.offsetEnd padded (offsets.getD experts 0))
  if let some (e, before, after) := decrease? offsets then throw (.offsetsDecrease e before after)
  if let some offset := offsets.find? fun o => o.toNat % block ≠ 0 then
    throw (.offsetUneven offset block)

/-- Takes one id into the places read so far, with a record of the slots seen. -/
def place (slots : Nat) (state : Array Nat × Array Bool) (id : Int) :
    Except Error (Array Nat × Array Bool) :=
  let (ids, seen) := state
  if 0 ≤ id ∧ id < slots then
    if seen.getD id.toNat false then .error (.repeatedSlot id.toNat)
    else .ok (ids.push id.toNat, seen.setIfInBounds id.toNat true)
  else .ok (ids.push slots, seen)

/-- The ids with one padding number, or the first slot that occurs twice. -/
def normalize (slots : Nat) (ids : Array Int) : Except Error (Array Nat) := do
  let (normalized, _) ← ids.foldlM (place slots) (#[], Array.replicate slots false)
  return normalized

/-- Reads and checks the routing of a product with `slots` slots. -/
def load (sortedIds offsets : Tensor) (padded experts block slots : Nat) : Except Error Plan := do
  let ids ← readIndices "sorted_ids" sortedIds
  if ids.size ≠ padded then throw (.idCount ids.size padded)
  let bounds ← readIndices "expert_offsets" offsets
  checkOffsets bounds padded experts block
  return { ids := ← normalize slots ids, offsets := bounds.map Int.toNat }

end Plan

end RoutedExperts
