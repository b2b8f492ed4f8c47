import RoutedExperts.Numeric.Scalar

/-!
# Element types of tensors

Nine element types, the values each of them holds, and the conversions between them. An integer
taken from a floating-point number is truncated toward zero and kept in range; an integer taken from
a wider integer keeps its low bits; a floating-point number is rounded to the nearest.
-/

namespace RoutedExperts

/-- The type of a tensor's elements. -/
inductive Element where
  | u8 | u32 | i16 | i32 | i64 | bf16 | f16 | f32 | f64
  deriving DecidableEq, Repr, Inhabited

namespace Element

/-- The values of an element type. -/
abbrev Value : Element → Type
  | u8 => UInt8
  | u32 => UInt32
  | i16 => Int16
  | i32 => Int32
  | i64 => Int64
  | bf16 => Brain
  | f16 => Half
  | f32 => Float32
  | f64 => Float

instance (e : Element) : Inhabited e.Value :=
  match e with
  | u8 => ⟨(0 : UInt8)⟩
  | u32 => ⟨(0 : UInt32)⟩
  | i16 => ⟨(0 : Int16)⟩
  | i32 => ⟨(0 : Int32)⟩
  | i64 => ⟨(0 : Int64)⟩
  | bf16 => ⟨(⟨0⟩ : Brain)⟩
  | f16 => ⟨(⟨0⟩ : Half)⟩
  | f32 => ⟨(0 : Float32)⟩
  | f64 => ⟨(0 : Float)⟩

/-- The name of an element type in messages. -/
def name : Element → String
  | u8 => "U8"
  | u32 => "U32"
  | i16 => "I16"
  | i32 => "I32"
  | i64 => "I64"
  | bf16 => "BF16"
  | f16 => "F16"
  | f32 => "F32"
  | f64 => "F64"

/-- Whether the values are floating-point numbers. -/
def isFloat : Element → Bool
  | bf16 | f16 | f32 | f64 => true
  | _ => false

/-- Whether the values may be the activations of a product. -/
def isActivation : Element → Bool
  | bf16 | f16 | f32 => true
  | _ => false

/-- Whether the values may be the positions of a routing vector. -/
def isIndex : Element → Bool
  | u8 | u32 | i64 => true
  | _ => false

/-- The datum of a value. -/
def datum : (e : Element) → e.Value → Datum
  | u8, x => .ofInt (UInt8.toNat x)
  | u32, x => .ofInt (UInt32.toNat x)
  | i16, x => .ofInt (Int16.toInt x)
  | i32, x => .ofInt (Int32.toInt x)
  | i64, x => .ofInt (Int64.toInt x)
  | bf16, x => Brain.datum x
  | f16, x => Half.datum x
  | f32, x => Single.datum x
  | f64, x => Double.datum x

/-- A value in single precision. -/
def toSingle : (e : Element) → e.Value → Float32
  | f32, x => x
  | e, x => Single.ofDatum (e.datum x)

/-- A value as a 64-bit integer. -/
def toInt (e : Element) (x : e.Value) : Int := (e.datum x).truncate (-twoTo 63) (twoTo 63 - 1)

/-- A value as a 32-bit word. -/
def toWord : (e : Element) → e.Value → UInt32
  | u32, x => x
  | e, x =>
    if e.isFloat then ((e.datum x).truncate 0 (twoTo 32 - 1)).toNat.toUInt32
    else (e.toInt x % twoTo 32).toNat.toUInt32

/-- The value nearest to a single-precision number. -/
def ofSingle : (e : Element) → Float32 → e.Value
  | u8, x => ((Single.datum x).truncate 0 (twoTo 8 - 1)).toNat.toUInt8
  | u32, x => ((Single.datum x).truncate 0 (twoTo 32 - 1)).toNat.toUInt32
  | i16, x => Int16.ofInt ((Single.datum x).truncate (-twoTo 15) (twoTo 15 - 1))
  | i32, x => Int32.ofInt ((Single.datum x).truncate (-twoTo 31) (twoTo 31 - 1))
  | i64, x => Int64.ofInt ((Single.datum x).truncate (-twoTo 63) (twoTo 63 - 1))
  | bf16, x => Brain.ofSingle x
  | f16, x => Half.ofSingle x
  | f32, x => x
  | f64, x => Double.ofSingle x

end Element

end RoutedExperts
