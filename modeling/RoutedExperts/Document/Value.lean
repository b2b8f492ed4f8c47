import RoutedExperts.Numeric.Scalar

/-!
# Document values

The values of a settings document, whichever notation it was written in, and the readings that
settings take of them. A reading is refused, never approximated: a number with a fraction part is
not an integer, and an integer has to fit the width it is read at.
-/

namespace RoutedExperts

/-- A value in a document. -/
inductive Value where
  | null
  | boolean (b : Bool)
  | integer (z : Int)
  | real (x : Float)
  | text (s : String)
  /-- A date, a time of day or both. -/
  | moment (s : String)
  | list (values : List Value)
  | table (entries : List (String × Value))
  deriving Inhabited

namespace Value

/-- The value under a key. -/
def lookup (key : String) (entries : List (String × Value)) : Option Value :=
  (entries.find? (·.1 == key)).map (·.2)

/-- A natural number below a limit. -/
def natBelow? (limit : Nat) : Value → Option Nat
  | integer z => if 0 ≤ z ∧ z < limit then some z.toNat else none
  | _ => none

/-- A natural number of 64 bits. -/
def size? (v : Value) : Option Nat := v.natBelow? (twoTo 64)

/-- A signed number of the given width. -/
def signed? (width : Nat) : Value → Option Int
  | integer z => if -twoTo (width - 1) ≤ z ∧ z < twoTo (width - 1) then some z else none
  | _ => none

/-- A truth value. -/
def boolean? : Value → Option Bool
  | boolean b => some b
  | _ => none

/-- A text. -/
def text? : Value → Option String
  | text s => some s
  | _ => none

/-- A number in single precision; an integer will do. -/
def single? : Value → Option Float32
  | integer z => some (Single.ofInt z)
  | real x => some (Double.toSingle x)
  | _ => none

/-- The fields of a record, written as a table or as a list in the order of the keys. -/
def fields? (keys : List String) : Value → Option (List (String × Value))
  | table entries => some entries
  | list values => if values.length ≤ keys.length then some (keys.zip values) else none
  | _ => none

/-- A field that has to be there. -/
def required? {α : Type} (read : Value → Option α) (key : String)
    (fields : List (String × Value)) : Option α :=
  (lookup key fields).bind read

/-- A field that may be absent. -/
def defaulted? {α : Type} (read : Value → Option α) (default : α) (key : String)
    (fields : List (String × Value)) : Option α :=
  match lookup key fields with
  | none => some default
  | some v => read v

/-- A value that may be null. -/
def nullable? {α : Type} (read : Value → Option α) : Value → Option (Option α)
  | null => some none
  | v => (read v).map some

end Value

end RoutedExperts
