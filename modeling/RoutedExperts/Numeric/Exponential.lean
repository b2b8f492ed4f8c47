import RoutedExperts.Numeric.Scalar

/-!
# The exponential in single precision

`Single.exp` is the correctly rounded exponential. The argument is reduced by a multiple of the
logarithm of two, the rest goes through the exponential series in fixed point, and the one rounding
is the last step. The fixed point carries 128 binary places; single-precision results are decided by
far fewer, since no exponential of a nonzero single-precision number comes that near to a tie.
-/

namespace RoutedExperts

namespace Exponential

/-- Binary places of the fixed-point numbers below. -/
def places : Nat := 128

/-- The number one in fixed point. -/
def one : Nat := 1 <<< places

/-- The logarithm of two in fixed point, rounded down. -/
def logTwo : Nat := 235865763225513294137944142764154484399

/-- The terms `1 + r / i * (1 + r / (i + 1) * ...)` of the exponential series, `count` of them. -/
def series (r : Nat) : (count : Nat) → (i : Nat) → Nat
  | 0, _ => one
  | count + 1, i => one + (r * series r count (i + 1)) >>> places / i

/-- Terms after which the series no longer changes a fixed-point number below the logarithm of
two. -/
def terms : Nat := 36

/-- The datum nearest to the exponential of `± mantissa * 2 ^ exponent`, for arguments below 256 in
size. -/
def ofFinite (negative : Bool) (mantissa : Nat) (exponent : Int) : Datum :=
  let scaled := exponent + places
  let size := if 0 ≤ scaled then mantissa <<< scaled.toNat else mantissa >>> (-scaled).toNat
  let x : Int := if negative then -(size : Int) else size
  let k := x / logTwo
  let r := (x % logTwo).toNat
  .finite false (series r terms 1) (k - places)

/-- Whether `mantissa * 2 ^ exponent` is at least 256, where the exponential leaves the range of
single precision. -/
def outOfRange (mantissa : Nat) (exponent : Int) : Bool :=
  mantissa ≠ 0 && 8 ≤ (mantissa.log2 : Int) + exponent

end Exponential

/-- The exponential, rounded to the nearest single-precision number. -/
def Single.exp (x : Float32) : Float32 :=
  match Single.datum x with
  | .nan => Single.ofDatum .nan
  | .infinite negative => if negative then 0 else x
  | .finite negative mantissa exponent =>
    if Exponential.outOfRange mantissa exponent then
      if negative then 0 else Single.ofDatum (.infinite false)
    else Single.ofDatum (Exponential.ofFinite negative mantissa exponent)

end RoutedExperts
