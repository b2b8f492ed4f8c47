import RoutedExperts.Numeric.Scalar

/-!
# Decimal numbers

`Decimal.shortest` writes a binary number with the fewest digits that read back as the same number,
of several such decimals the nearest one, and of two equally near ones the larger. `Decimal.code`
reads a decimal as the nearest binary number. `Decimal.layout` turns digits into text.
-/

namespace RoutedExperts

/-- The decimal number `± digits * 10 ^ exponent`. -/
structure Decimal where
  negative : Bool
  digits : Nat
  exponent : Int
  deriving DecidableEq, Repr, Inhabited

namespace Decimal

/-- The decimal digits of a number. -/
def digitText (n : Nat) : List Char := Nat.toDigits 10 n

/-- The value of decimal digits. -/
def digitValue (cs : List Char) : Nat := cs.foldl (fun n c => 10 * n + (c.toNat - 48)) 0

/-- The decimal of a whole part, a fraction part and an exponent. -/
def ofParts (negative : Bool) (whole fraction : List Char) (exponent : Int) : Decimal :=
  ⟨negative, digitValue (whole ++ fraction), exponent - fraction.length⟩

/-- The exponent of the leading digit. -/
def leading (d : Decimal) : Int := d.exponent + (digitText d.digits).length - 1

/-- Decimals with a leading exponent beyond this are infinite, and below its negative zero, in every
format. -/
def reach : Int := 400

/-- The code of the nearest number of a binary format. -/
def code (f : Format) (d : Decimal) : Nat :=
  let sign := if d.negative then f.signCode else 0
  if d.digits = 0 ∨ d.leading < -reach then sign
  else if reach < d.leading then sign + f.infinityCode
  else if 0 ≤ d.exponent then f.encodeRatio d.negative (d.digits * tenTo d.exponent.toNat) 1
  else f.encodeRatio d.negative d.digits (tenTo (-d.exponent).toNat)

/-- The nearest number in single precision. -/
def toSingle (d : Decimal) : Float32 := Float32.ofBits (d.code .single).toUInt32

/-- The nearest number in double precision. -/
def toDouble (d : Decimal) : Float := Float.ofBits (d.code .double).toUInt64

/-- The grid point nearest to a number among those that read back as the number. The number is
`mantissa * 2 ^ exponent`, and a grid point is a multiple of `10 ^ place`. Distances to the two
neighbours are halved, in units of a quarter of the last binary place; the ends of the interval read
back when the mantissa is even. -/
def onGrid? (f : Format) (mantissa : Nat) (exponent place : Int) : Option Nat :=
  let scale := twoTo (exponent - 2).toNat * tenTo (-place).toNat
  let unit := twoTo (2 - exponent).toNat * tenTo place.toNat
  let half := if mantissa = twoTo f.fractionBits ∧ f.unitExponent < exponent then 1 else 2
  let low := (4 * mantissa - half) * scale
  let high := (4 * mantissa + 2) * scale
  let inside (n : Nat) : Bool :=
    if mantissa % 2 = 0 then low ≤ n * unit && n * unit ≤ high
    else low < n * unit && n * unit < high
  let value := 4 * mantissa * scale
  let below := value / unit
  let lower := 0 < below && inside below
  let upper := inside (below + 1)
  if lower && upper then some (if unit ≤ 2 * (value % unit) then below + 1 else below)
  else if lower then some below
  else if upper then some (below + 1)
  else none

/-- The first grid on which a number has a point, from coarse to fine. -/
def refine (f : Format) (mantissa : Nat) (exponent : Int) : Nat → Int → Nat × Int
  | 0, place => (0, place)
  | fuel + 1, place =>
    match onGrid? f mantissa exponent place with
    | some digits => (digits, place)
    | none => refine f mantissa exponent fuel (place - 1)

/-- A power of ten that exceeds `2 ^ k`. -/
def powerAbove (k : Int) : Int := k * 30103 / 100000 + 2

/-- The shortest decimal of the positive number `mantissa * 2 ^ exponent`. No format needs more than
twenty-five grids. -/
def shortest (f : Format) (negative : Bool) (mantissa : Nat) (exponent : Int) : Decimal :=
  let (digits, place) :=
    refine f mantissa exponent 25 (powerAbove (mantissa.log2 + 1 + exponent))
  ⟨negative, digits, place⟩

/-- How a decimal is laid out. -/
structure Style where
  /-- The leading exponents that are written without an exponent; all of them if there is no
  limit. -/
  plain : Option (Int × Int) := none
  /-- Whether a whole number ends in a point and a zero. -/
  pointZero : Bool := true
  nan : String := "NaN"

/-- Digits with a point, and no exponent. -/
def positional (style : Style) (d : Decimal) : String :=
  let digits := digitText d.digits
  let whole := if style.pointZero then ".0" else ""
  let text :=
    if 0 ≤ d.exponent then
      String.ofList (digits ++ List.replicate d.exponent.toNat '0') ++ whole
    else
      let places := (-d.exponent).toNat
      let padded := List.replicate (places + 1 - digits.length) '0' ++ digits
      String.ofList (padded.take (padded.length - places)) ++ "." ++
        String.ofList (padded.drop (padded.length - places))
  (if d.negative then "-" else "") ++ text

/-- One digit, the others behind a point, and an exponent. -/
def scientific (d : Decimal) : String :=
  let digits := digitText d.digits
  let fraction := if digits.length ≤ 1 then "" else "." ++ String.ofList (digits.drop 1)
  (if d.negative then "-" else "") ++ String.ofList (digits.take 1) ++ fraction ++ "e" ++
    toString d.leading

/-- A decimal as text. -/
def layout (style : Style) (d : Decimal) : String :=
  match style.plain with
  | none => d.positional style
  | some (low, high) =>
    if d.digits = 0 ∨ (low ≤ d.leading ∧ d.leading ≤ high) then d.positional style
    else d.scientific

/-- A datum of a format as text. -/
def datumText (style : Style) (f : Format) : Datum → String
  | .nan => style.nan
  | .infinite negative => if negative then "-inf" else "inf"
  | .finite negative mantissa exponent =>
    if mantissa = 0 then layout style ⟨negative, 0, 0⟩
    else layout style (shortest f negative mantissa exponent)

/-- A single-precision number as text. -/
def singleText (style : Style) (x : Float32) : String := datumText style .single (Single.datum x)

/-- A double-precision number as text. -/
def doubleText (style : Style) (x : Float) : String := datumText style .double (Double.datum x)

end Decimal

end RoutedExperts
