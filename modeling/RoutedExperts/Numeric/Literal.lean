import RoutedExperts.Numeric.Decimal

/-!
# Numbers on a command line

An integer is an optional sign and digits; a number with a point may lack the digits on one side of
it, and infinities and NaN have names.
-/

namespace RoutedExperts

namespace Literal

/-- The value of one or more decimal digits. -/
def digits? (cs : List Char) : Option Nat :=
  if cs.isEmpty || !cs.all Char.isDigit then none else some (Decimal.digitValue cs)

/-- An integer with an optional sign. -/
def int? (s : String) : Option Int :=
  match s.toList with
  | '-' :: rest => (digits? rest).map fun n => -(n : Int)
  | '+' :: rest => (digits? rest).map Int.ofNat
  | cs => (digits? cs).map Int.ofNat

/-- A natural number with an optional plus sign. -/
def nat? (s : String) : Option Nat :=
  match s.toList with
  | '+' :: rest => digits? rest
  | cs => digits? cs

/-- A natural number below a limit. -/
def natBelow? (limit : Nat) (s : String) : Option Nat := (nat? s).filter (· < limit)

/-- An integer between two limits. -/
def intBetween? (low high : Int) (s : String) : Option Int :=
  (int? s).filter fun z => low ≤ z && z ≤ high

/-- What follows the mark of an exponent. -/
def exponent? : List Char → Option Int
  | '-' :: rest => (digits? rest).map fun n => -(n : Int)
  | '+' :: rest => (digits? rest).map Int.ofNat
  | cs => (digits? cs).map Int.ofNat

/-- A decimal number without its sign. -/
def decimal? (negative : Bool) (cs : List Char) : Option Decimal :=
  let (whole, rest) := cs.span Char.isDigit
  let (fraction, rest) := match rest with
    | '.' :: behind => behind.span Char.isDigit
    | rest => ([], rest)
  if whole.isEmpty && fraction.isEmpty then none
  else match rest with
    | [] => some (Decimal.ofParts negative whole fraction 0)
    | mark :: behind =>
      if mark = 'e' ∨ mark = 'E' then
        (exponent? behind).map (Decimal.ofParts negative whole fraction)
      else none

/-- A number without its sign. -/
def unsigned? (negative : Bool) (cs : List Char) : Option Float32 :=
  let name := String.ofList (cs.map Char.toLower)
  if name = "nan" then some (Single.ofDatum .nan)
  else if name = "inf" ∨ name = "infinity" then some (Single.ofDatum (.infinite negative))
  else (decimal? negative cs).map Decimal.toSingle

/-- A number in single precision. -/
def single? (s : String) : Option Float32 :=
  match s.toList with
  | '-' :: rest => unsigned? true rest
  | '+' :: rest => unsigned? false rest
  | cs => unsigned? false cs

end Literal

end RoutedExperts
