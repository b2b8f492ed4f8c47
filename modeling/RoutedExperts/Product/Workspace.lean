import RoutedExperts.Routing.Block

/-!
# Scratch memory of grouped products

A workspace is a buffer that one product after another writes to. A product needs room for one
expert's weights, and for the input and output rows of one block.
-/

namespace RoutedExperts

/-- A reusable scratch buffer. -/
structure Workspace where
  buffer : Array Float32

namespace Workspace

/-- The number of elements. -/
def size (w : Workspace) : Nat := w.buffer.size

/-- The elements that a product of this shape needs. -/
def required (columns rows block : Nat) : Nat := rows * columns + block * (rows + columns)

/-- A zeroed workspace of the given size. -/
def ofSize (size : Nat) : Workspace := ⟨Array.replicate size 0⟩

/-- A workspace for products of one shape. -/
def forShape (columns rows block : Nat) : Workspace := ofSize (required columns rows block)

/-- A workspace for products of each `(columns, rows)` shape with any supported block. -/
def forShapes (shapes : List (Nat × Nat)) : Workspace :=
  ofSize ((shapes.map fun (columns, rows) => required columns rows Block.largest.size).foldl max 0)

/-- Whether a product of this shape fits. -/
def fits (w : Workspace) (columns rows block : Nat) : Bool := required columns rows block ≤ w.size

end Workspace

end RoutedExperts
