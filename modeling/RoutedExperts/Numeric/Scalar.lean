import RoutedExperts.Numeric.Format

/-!
# The floating-point scalars of tensors

Arithmetic in single precision is core `Float32`. This module adds the two sixteen-bit storage
types, the conversions between all widths through `Datum`, and the two order operations that pass
over a NaN.
-/

namespace RoutedExperts

/-- A half-precision number, kept as its code. -/
structure Half where
  bits : UInt16
  deriving DecidableEq, Repr, Inhabited

/-- A number with the exponent range of single precision and an eight-bit significand. -/
structure Brain where
  bits : UInt16
  deriving DecidableEq, Repr, Inhabited

namespace Single

/-- What a single-precision number stands for. -/
def datum (x : Float32) : Datum := Format.single.decode x.toBits.toNat

/-- The single-precision number nearest to a datum. -/
def ofDatum (d : Datum) : Float32 := Float32.ofBits (Format.single.encode d).toUInt32

/-- The single-precision number nearest to an integer. -/
def ofInt (z : Int) : Float32 := ofDatum (.ofInt z)

/-- The smaller of two numbers, where a NaN yields to the other. -/
def lesser (x y : Float32) : Float32 :=
  if x.isNaN then y else if y.isNaN then x else if y < x then y else x

/-- The larger of two numbers, where a NaN yields to the other. -/
def greater (x y : Float32) : Float32 :=
  if x.isNaN then y else if y.isNaN then x else if x < y then y else x

/-- The largest finite number. -/
def largest : Float32 := Float32.ofBits 0x7f7fffff

end Single

namespace Double

/-- What a double-precision number stands for. -/
def datum (x : Float) : Datum := Format.double.decode x.toBits.toNat

/-- The double-precision number nearest to a datum. -/
def ofDatum (d : Datum) : Float := Float.ofBits (Format.double.encode d).toUInt64

/-- The number narrowed to single precision. -/
def toSingle (x : Float) : Float32 := Single.ofDatum (datum x)

/-- A single-precision number widened, which is exact. -/
def ofSingle (x : Float32) : Float := ofDatum (Single.datum x)

end Double

namespace Half

/-- What a half-precision number stands for. -/
def datum (h : Half) : Datum := Format.half.decode h.bits.toNat

/-- The half-precision number nearest to a datum. -/
def ofDatum (d : Datum) : Half := ⟨(Format.half.encode d).toUInt16⟩

/-- The half-precision number nearest to a single-precision one. -/
def ofSingle (x : Float32) : Half := ofDatum (Single.datum x)

/-- The number widened to single precision, which is exact. -/
def toSingle (h : Half) : Float32 := Single.ofDatum h.datum

end Half

namespace Brain

/-- What a number stands for. -/
def datum (b : Brain) : Datum := Format.brain.decode b.bits.toNat

/-- The number nearest to a datum. -/
def ofDatum (d : Datum) : Brain := ⟨(Format.brain.encode d).toUInt16⟩

/-- The number nearest to a single-precision one. -/
def ofSingle (x : Float32) : Brain := ofDatum (Single.datum x)

/-- The number widened to single precision, which is exact. -/
def toSingle (b : Brain) : Float32 := Single.ofDatum b.datum

end Brain

end RoutedExperts
