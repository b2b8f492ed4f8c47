import RoutedExperts.Tensor.Element

/-!
# Dense tensors

A tensor is an element type, a shape, and the elements in row-major order; the type says that there
are as many elements as the shape has places. Every operation below builds its result by
`Tensor.ofFn`, so a result is described by its element at each position.
-/

namespace RoutedExperts

/-- The number of places of a shape. -/
def volume (shape : List Nat) : Nat := shape.foldr (· * ·) 1

/-- A shape as it is written in messages. -/
def shapeText (shape : List Nat) : String := "[" ++ ", ".intercalate (shape.map toString) ++ "]"

/-- A dense tensor in row-major order. -/
structure Tensor where
  element : Element
  shape : List Nat
  data : Array element.Value
  size_data : data.size = volume shape

namespace Tensor

/-- The tensor whose element at position `i` is `f i`. -/
def ofFn (element : Element) (shape : List Nat) (f : Nat → element.Value) : Tensor where
  element := element
  shape := shape
  data := Array.ofFn fun i : Fin (volume shape) => f i
  size_data := Array.size_ofFn

/-- The tensor of the given elements, if they fill the shape. -/
def ofArray? (element : Element) (shape : List Nat) (data : Array element.Value) : Option Tensor :=
  if h : data.size = volume shape then some ⟨element, shape, data, h⟩ else none

/-- The tensor of single-precision values rounded to the element type. -/
def ofSingles (element : Element) (shape : List Nat) (values : Array Float32) : Tensor :=
  ofFn element shape fun i => element.ofSingle (values.getD i 0)

/-- The tensor of 32-bit words. -/
def ofWords (shape : List Nat) (values : Array UInt32) : Tensor :=
  ofFn .u32 shape fun i => values.getD i 0

/-- The tensor that is zero everywhere. -/
def zeros (element : Element) (shape : List Nat) : Tensor := ofFn element shape fun _ => default

/-- The element at a position, or zero outside of the tensor. -/
def get (t : Tensor) (i : Nat) : t.element.Value := t.data.getD i default

/-- The elements in single precision. -/
def singles (t : Tensor) : Array Float32 := t.data.map t.element.toSingle

/-- The elements as 64-bit integers. -/
def ints (t : Tensor) : Array Int := t.data.map t.element.toInt

/-- The elements as 32-bit words. -/
def words (t : Tensor) : Array UInt32 := t.data.map t.element.toWord

/-- The same elements in another shape. -/
def reshape (t : Tensor) (shape : List Nat) : Tensor := ofFn t.element shape t.get

/-- The tensor whose position `i` holds what `t` has at `source i`. -/
def reorder (t : Tensor) (source : Nat → Nat) : Tensor :=
  ofFn t.element t.shape fun i => t.get (source i)

end Tensor

end RoutedExperts
