import RoutedExperts.Error

/-!
# Block sizes

The slots of an expert are worked on a block at a time. Four block sizes are supported; for a batch
without a given one, the least that holds an expert's even share of the slots is taken.
-/

namespace RoutedExperts

/-- The number of slots in a block. -/
structure Block where
  size : Nat
  deriving DecidableEq, Repr

namespace Block

/-- The supported block sizes. -/
def sizes : List Nat := [16, 32, 48, 64]

/-- The largest supported block. -/
def largest : Block := ⟨64⟩

instance : Inhabited Block := ⟨largest⟩

/-- Refuses a block size that is not supported. -/
def check (size : Nat) : Except Error Unit :=
  if sizes.contains size then .ok () else .error (.blockSize size)

/-- The block of a supported size. -/
def ofSize (size : Nat) : Except Error Block := do
  check size
  return ⟨size⟩

/-- The least number of groups of `d` that hold `n`. -/
def divUp (n d : Nat) : Nat := (n + d - 1) / d

/-- The block for a batch: the least supported one that holds an expert's even share of the slots,
or the largest. -/
def forBatch (tokens chosen experts : Nat) : Block :=
  let share := divUp (tokens * chosen) (max experts 1)
  ⟨(sizes.find? (share ≤ ·)).getD 64⟩

end Block

end RoutedExperts
