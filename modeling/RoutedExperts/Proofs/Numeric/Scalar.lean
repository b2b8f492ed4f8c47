import Mathlib
import RoutedExperts.Numeric.Scalar
import RoutedExperts.Proofs.Numeric.Format

/-!
# Numbers in single and half precision

The bits of a number in single precision are kept, a NaN apart (`Single.toBits_ofBits`), so what is
written by the codec of `Format.single` is read back by it. Half precision embeds in single
precision, and a half-precision number that was widened is found again by rounding
(`Half.ofSingle_toSingle`).
-/

namespace RoutedExperts

namespace Single

open Float.Model.UnpackedFloat
open Float.Model.Format (binary32)

/-- The bits of a number are kept. -/
theorem toBits_ofBits {c : UInt32} (h : c.toNat % 2147483648 ≤ 2139095040) :
    (Float32.ofBits c).toBits = c := by
  have hnumber : ¬ @isNaNBits binary32 c.toBitVec = true := by
    intro hnan
    obtain ⟨htop, hfraction⟩ := of_decide_eq_true hnan
    have hfield : c.toNat >>> 23 % 256 = 255 := congrArg BitVec.toNat htop
    apply hfraction
    apply BitVec.eq_of_toNat_eq
    change c.toNat >>> 0 % 8388608 = 0
    rw [Nat.shiftRight_eq_div_pow] at hfield
    rw [Nat.shiftRight_zero]
    omega
  have hpack := @pack_unpack binary32 c.toBitVec (by decide)
  rw [if_neg hnumber] at hpack
  exact congrArg UInt32.ofBitVec hpack

/-- What is written for a number is read back. -/
theorem datum_ofDatum {d : Datum} (hd : d ≠ .nan) :
    datum (ofDatum d) = Format.single.decode (Format.single.encode d) := by
  obtain ⟨negative, code, hcode, hencode⟩ := Format.single.exists_encode_eq_signed hd
  have hinfinity : Format.single.infinityCode = 2139095040 := rfl
  have hsign : Format.single.signCode = 2147483648 := rfl
  have hbounds : Format.single.encode d < 4294967296 ∧
      Format.single.encode d % 2147483648 ≤ 2139095040 := by
    rw [hencode, Format.signed, hsign]
    cases negative with
    | false =>
      rw [if_neg (by decide)]
      omega
    | true =>
      rw [if_pos rfl]
      omega
  have hword : (Format.single.encode d).toUInt32.toNat = Format.single.encode d := by
    rw [Nat.toUInt32_eq, UInt32.toNat_ofNat_of_lt' hbounds.1]
  rw [datum, ofDatum, toBits_ofBits (by rw [hword]; exact hbounds.2), hword]

end Single

/-! ### Half precision -/

namespace Half

/-- A widened half-precision number is found again by rounding. -/
theorem ofSingle_toSingle {h : Half} (hnumber : h.datum ≠ .nan) : ofSingle h.toSingle = h := by
  have hsize : h.bits.toNat < 2 * Format.half.signCode := h.bits.toNat_lt
  obtain ⟨negative, code, hcode, hbits⟩ := Format.exists_eq_signed hsize
  have hdatum : h.datum = Format.half.decode (Format.half.signed negative code) := by
    rw [datum, hbits]
  have hround : Format.half.encode (Format.single.decode (Format.single.encode h.datum)) =
      h.bits.toNat := by
    rw [hdatum, hbits]
    rw [hdatum] at hnumber
    rcases Nat.lt_trichotomy code Format.half.infinityCode with hfinite | rfl | hnan
    · exact Format.half_embeds_single.encode_decode_encode negative hfinite
    · rw [Format.decode_signed_infinityCode]
      change Format.half.encode (Format.single.decode
        (Format.single.signed negative Format.single.infinityCode)) = _
      rw [Format.decode_signed_infinityCode]
      rfl
    · exact absurd (Format.decode_signed_eq_nan negative hnan hcode) hnumber
  rw [ofSingle, toSingle, Single.datum_ofDatum hnumber, ofDatum, hround, Nat.toUInt16_eq,
    UInt16.ofNat_toNat]

end Half

end RoutedExperts
