import RoutedExperts.Error
import RoutedExperts.Numeric.Exponential

/-!
# Dense references

What grouped products and gated networks should give, computed expert by expert on dense weights:
the rows of the tokens routed to an expert are multiplied as one matrix, weighted, and added to the
rows of their tokens.
-/

namespace RoutedExperts

namespace Reference

/-- A row-major matrix. -/
structure Matrix where
  rows : Nat
  columns : Nat
  data : Array Float32

namespace Matrix

/-- The matrix of the given entries. -/
def ofFn (rows columns : Nat) (entry : Nat → Nat → Float32) : Matrix where
  rows := rows
  columns := columns
  data := Array.ofFn fun i : Fin (rows * columns) => entry (i / columns) (i % columns)

/-- The entry at a row and a column. -/
def entry (m : Matrix) (r c : Nat) : Float32 := m.data.getD (r * m.columns + c) 0

end Matrix

/-- An operand of a matrix product, whose shape is not yet known to be one of a matrix. -/
structure Operand where
  shape : List Nat
  data : Array Float32

/-- The tokens routed to one expert, with the weight of each. -/
structure Routed where
  expert : Nat
  tokens : List Nat
  weights : List Float32

/-- A tensor of two dimensions. -/
def rows? (t : Tensor) : Except Error (Nat × Nat) :=
  match t.shape with
  | [rows, columns] => .ok (rows, columns)
  | shape => .error (.rank 2 shape)

/-- The weight at row `m` and column `j`; one when there are no weights. -/
def weightAt (weights : Option (Nat × Nat × Array Float32)) (m j : Nat) : Except Error Float32 :=
  match weights with
  | none => .ok 1
  | some (rows, columns, values) =>
    if m < rows ∧ j < columns then .ok (values.getD (m * columns + j) 0) else .error .missingWeight

/-- For each expert that a slot names, the tokens of those slots and their weights, in the order of
the slots. -/
def routedRows (ids : Tensor) (weights : Option Tensor) (experts : Nat) :
    Except Error (List Routed) := do
  let (tokens, chosen) ← rows? ids
  let weights ← match weights with
    | none => pure none
    | some w => do
      let (rows, columns) ← rows? w
      pure (some (rows, columns, w.singles))
  let words := ids.words
  let entries ← (List.range experts).mapM fun expert => do
    let slots := (List.range (tokens * chosen)).filter fun i => (words.getD i 0).toNat = expert
    let scale ← slots.mapM fun i => weightAt weights (i / chosen) (i % chosen)
    return { expert := expert, tokens := slots.map (· / chosen), weights := scale : Routed }
  return entries.filter fun r => !r.tokens.isEmpty

/-- The extent of the first dimension. -/
def firstExtent (t : Tensor) : Except Error Nat :=
  match t.shape with
  | rows :: _ => .ok rows
  | [] => .error (.dimension "dim" 0 [])

/-- The given rows of a tensor. -/
def takeRows (t : Tensor) (values : Array Float32) (rows : List Nat) : Except Error Operand := do
  let extent ← firstExtent t
  if let some i := rows.find? (extent ≤ ·) then throw (.rowIndex i extent)
  let rest := t.shape.tail
  let width := volume rest
  return {
    shape := rows.length :: rest
    data := rows.foldl (fun data r => data ++ values.extract (r * width) ((r + 1) * width)) #[] }

/-- One expert's matrix of a stack. -/
def expertMatrix (t : Tensor) (values : Array Float32) (expert : Nat) : Except Error Operand :=
  match t.shape with
  | [] => .error (.dimension "narrow" 0 [])
  | extent :: rest =>
    if extent < expert + 1 then .error (.narrow t.shape 0 expert 1)
    else
      let size := volume rest
      .ok { shape := rest, data := values.extract (expert * size) ((expert + 1) * size) }

/-- The product of a row and a column, summed from the first inner index to the last. -/
def dot (inner columns : Nat) (left right : Array Float32) (row column : Nat) : Float32 :=
  let start := row * inner
  Nat.fold inner (fun k _ sum =>
    sum + left.getD (start + k) 0 * right.getD (k * columns + column) 0) 0

/-- The product of two matrices. -/
def multiply (left right : Operand) : Except Error Matrix :=
  match left.shape, right.shape with
  | [rows, inner], [inner', columns] =>
    if inner = inner' then .ok (.ofFn rows columns (dot inner columns left.data right.data))
    else .error (.matrixProduct left.shape right.shape)
  | _, _ => .error (.matrixProduct left.shape right.shape)

/-- Adds weighted rows to the rows of their tokens, one after another. -/
def addRows (columns : Nat) (out : Array Float32) (routed : Routed) (m : Matrix) : Array Float32 :=
  (routed.tokens.zip routed.weights).zipIdx.foldl (fun out ((token, weight), r) =>
    Nat.fold columns (fun n _ out =>
      out.modify (token * columns + n) (· + m.entry r n * weight)) out) out

/-- Adds what each expert contributes to a zeroed result. -/
def accumulate (tokens columns : Nat) (routed : List Routed)
    (contribution : Routed → Except Error Matrix) : Except Error Tensor := do
  let out ← routed.foldlM (fun out r => do return addRows columns out r (← contribution r))
    (Array.replicate (tokens * columns) (0 : Float32))
  return Tensor.ofSingles .f32 [tokens, columns] out

/-- Each token's row times the weights of its experts, summed by the weights of its slots. -/
def dense (activations weights ids : Tensor) (slotWeights : Option Tensor) :
    Except Error Tensor := do
  match weights.shape with
  | [experts, _, columns] =>
    let tokens ← firstExtent activations
    let routed ← routedRows ids slotWeights experts
    let left := activations.singles
    let right := weights.singles
    accumulate tokens columns routed fun r => do
      let rows ← takeRows activations left r.tokens
      multiply rows (← expertMatrix weights right r.expert)
  | shape => throw (.rank 3 shape)

/-- The gated product of a row that holds gate columns first and up columns after them. -/
def gatedEntry (m : Matrix) (half : Nat) (r i : Nat) : Float32 :=
  let gate := m.entry r i
  gate / (Single.exp (-gate) + 1) * m.entry r (half + i)

/-- Refuses a matrix that has no columns from `start` on. -/
def checkColumns (m : Matrix) (start count : Nat) : Except Error Unit :=
  if m.columns < start + count then .error (.narrow [m.rows, m.columns] 1 start count) else .ok ()

/-- A gated network on dense weights: gate and up columns, the gated activation, and the down
projection, summed by the weights of the slots. -/
def gated (hidden gateUp down ids slotWeights : Tensor) : Except Error Tensor := do
  match down.shape with
  | [experts, intermediate, columns] =>
    let tokens ← firstExtent hidden
    let routed ← routedRows ids (some slotWeights) experts
    let input := hidden.singles
    let first := gateUp.singles
    let second := down.singles
    accumulate tokens columns routed fun r => do
      let rows ← takeRows hidden input r.tokens
      let m ← multiply rows (← expertMatrix gateUp first r.expert)
      checkColumns m 0 intermediate
      checkColumns m intermediate intermediate
      let activated := Matrix.ofFn m.rows intermediate (gatedEntry m intermediate)
      multiply ⟨[m.rows, intermediate], activated.data⟩ (← expertMatrix down second r.expert)
  | shape => throw (.rank 3 shape)

/-- The largest difference of two lists, relative to the expected value or to one, whichever is
larger. A NaN counts for nothing. -/
def maxRelativeError (actual expected : List Float32) : Float32 :=
  (actual.zip expected).foldl (fun worst (a, e) =>
    Single.greater worst ((a - e).abs / Single.greater e.abs 1)) 0

end Reference

end RoutedExperts
