/-!
# Binary interchange formats

A format is a pair of field widths. `Format.decode` reads a code as a `Datum`, and `Format.encode`
writes the code nearest to a datum: of two equally near codes the even one, beyond the largest
finite value an infinity, and for every NaN the one quiet NaN without a sign. All arithmetic is on
natural numbers, so no rounding happens but the one in `divNearest`.
-/

namespace RoutedExperts

/-- Two to a power: the number of values of so many bits. -/
@[inline]
def twoTo (bits : Nat) : Nat := 1 <<< bits

/-- Ten to a power. -/
@[inline]
def tenTo (places : Nat) : Nat := Nat.pow 10 places

/-- The quotient `n / d` rounded to the nearest whole number; a tie goes to the even neighbour. -/
def divNearest (n d : Nat) : Nat :=
  let q := n / d
  let r := n % d
  if 2 * r < d then q else if d < 2 * r then q + 1 else q + q % 2

/-- What a floating-point code stands for; a finite datum is `± mantissa * 2 ^ exponent`. -/
inductive Datum where
  | nan
  | infinite (negative : Bool)
  | finite (negative : Bool) (mantissa : Nat) (exponent : Int)
  deriving DecidableEq, Repr, Inhabited

namespace Datum

/-- The integer a datum is truncated to, kept between `low` and `high`; a NaN gives zero. -/
def truncate (low high : Int) : Datum → Int
  | nan => 0
  | infinite negative => if negative then low else high
  | finite negative mantissa exponent =>
    let size := if 0 ≤ exponent then mantissa <<< exponent.toNat
      else mantissa >>> (-exponent).toNat
    max low (min high (if negative then -(size : Int) else size))

/-- The datum of an integer. -/
def ofInt (z : Int) : Datum := finite (z < 0) z.natAbs 0

end Datum

/-- A binary format with the given widths of the fraction and of the exponent field. -/
structure Format where
  fractionBits : Nat
  exponentBits : Nat
  deriving DecidableEq, Repr

namespace Format

/-- Sixteen bits, eleven of precision. -/
@[inline]
def half : Format := ⟨10, 5⟩

/-- Sixteen bits, eight of precision and the exponent range of `single`. -/
@[inline]
def brain : Format := ⟨7, 8⟩

/-- Thirty-two bits, twenty-four of precision. -/
@[inline]
def single : Format := ⟨23, 8⟩

/-- Sixty-four bits, fifty-three of precision. -/
@[inline]
def double : Format := ⟨52, 11⟩

/-- The least positive value is two to this power. -/
@[inline]
def unitExponent (f : Format) : Int := 2 - twoTo (f.exponentBits - 1) - f.fractionBits

/-- The code of positive infinity, one above the largest finite code. -/
@[inline]
def infinityCode (f : Format) : Nat := (twoTo f.exponentBits - 1) * twoTo f.fractionBits

/-- The code of the quiet NaN without a sign. -/
@[inline]
def nanCode (f : Format) : Nat := f.infinityCode + twoTo (f.fractionBits - 1)

/-- The value of the sign bit. -/
@[inline]
def signCode (f : Format) : Nat := twoTo (f.exponentBits + f.fractionBits)

/-- The datum of a code. -/
@[inline]
def decode (f : Format) (code : Nat) : Datum :=
  let negative := code / f.signCode % 2 == 1
  let field := code >>> f.fractionBits % twoTo f.exponentBits
  let fraction := code % twoTo f.fractionBits
  if field = twoTo f.exponentBits - 1 then
    if fraction = 0 then .infinite negative else .nan
  else if field = 0 then .finite negative fraction f.unitExponent
  else .finite negative (twoTo f.fractionBits + fraction) (f.unitExponent + field - 1)

/-- The exponent of the leading binary digit of `n / d`, both positive. -/
def leadingExponent (n d : Nat) : Int :=
  let k : Int := (n.log2 : Int) - d.log2
  let reached := if 0 ≤ k then d <<< k.toNat ≤ n else d ≤ n <<< (-k).toNat
  if reached then k else k - 1

/-- The sign-free code nearest to `n / d`. The codes of one binade are evenly spaced, and the code
counts spacings, so a carry out of the fraction lands on the next binade by itself. -/
def ratioCode (f : Format) (n d : Nat) : Nat :=
  if n = 0 then 0 else
  let spacing := max (leadingExponent n d - f.fractionBits) f.unitExponent
  let steps := if 0 ≤ spacing then divNearest n (d <<< spacing.toNat)
    else divNearest (n <<< (-spacing).toNat) d
  min ((spacing - f.unitExponent).toNat * twoTo f.fractionBits + steps) f.infinityCode

/-- The code nearest to `± n / d`. -/
def encodeRatio (f : Format) (negative : Bool) (n d : Nat) : Nat :=
  (if negative then f.signCode else 0) + f.ratioCode n d

/-- The sign-free code nearest to `mantissa * 2 ^ exponent`. -/
@[inline]
def dyadicCode (f : Format) (mantissa : Nat) (exponent : Int) : Nat :=
  if mantissa = 0 then 0 else
  let spacing := max (mantissa.log2 + exponent - f.fractionBits) f.unitExponent
  let steps := if spacing ≤ exponent then mantissa <<< (exponent - spacing).toNat
    else divNearest mantissa (1 <<< (spacing - exponent).toNat)
  min ((spacing - f.unitExponent).toNat * twoTo f.fractionBits + steps) f.infinityCode

/-- The code nearest to a datum. -/
@[inline]
def encode (f : Format) : Datum → Nat
  | .nan => f.nanCode
  | .infinite negative => (if negative then f.signCode else 0) + f.infinityCode
  | .finite negative mantissa exponent =>
    (if negative then f.signCode else 0) + f.dyadicCode mantissa exponent

end Format

end RoutedExperts
