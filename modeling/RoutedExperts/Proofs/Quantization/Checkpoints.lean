import Mathlib.Tactic.SplitIfs
import RoutedExperts.Proofs.Checks
import RoutedExperts.Quantization.Settings

/-!
# How checkpoints are read

Of the integers in a checkpoint's settings 32 bits are kept before they are checked. An accepted
checkpoint therefore has the width and the group size that it names exactly where these fit 32 bits
(`QuantSettings.validate_ofCheckpoint_reads`); any other integer is taken for a supported one.
-/

namespace RoutedExperts

namespace QuantSettings

variable {q : QuantSettings} {capability : Option Nat} {type : WeightType}

/-- A type has the bits that the settings ask for. -/
theorem bits_of_type? (h : q.type? = some type) : type.bits = q.bits := by
  unfold type? at h
  split at h <;> cases h
  all_goals simp only [WeightType.bits, *]

/-- Accepted settings name a weight type and a supported group size. -/
theorem bits_groupSize_of_validate (h : q.validate capability = .ok type) :
    type.bits = q.bits ∧ q.groupSize ∈ Support.groupSizes := by
  unfold validate at h
  split at h
  · cases h
  · rename_i t htype
    split_ifs at h with horder hzero hadmits
    cases h
    refine ⟨bits_of_type? htype, ?_⟩
    simp only [Support.admits, Bool.and_eq_true, List.contains_iff_mem] at hadmits
    exact hadmits.2

/-! ### Entries of a checkpoint -/

variable {entries : List (String × Value)} {z : Int}

/-- The entry for the width of a weight, under the first of its two names that is present. -/
def bitsEntry (entries : List (String × Value)) : Option Value :=
  (Value.lookup "bits" entries).orElse fun _ => Value.lookup "weight_bits" entries

/-- Of a width, 32 bits are kept; one that is no natural number of 64 bits is passed over. -/
theorem bits_ofCheckpoint (h : bitsEntry entries = some (.integer z)) :
    ((ofCheckpoint entries).bits : Int) =
      if 0 ≤ z ∧ z < twoTo 64 then z % twoTo 32 else 4 := by
  have hread : (ofCheckpoint entries).bits = ((bitsEntry entries).bind word32?).getD 4 := rfl
  rw [hread, h, Option.bind_some, word32?, Value.size?, Value.natBelow?]
  split_ifs with hrange
  · have hcast : ((z.toNat : Nat) : Int) = z := Int.toNat_of_nonneg hrange.1
    rw [Option.map_some, Option.getD_some, Int.natCast_emod, hcast]
  · rfl

/-- Of a group size, 32 bits are kept; one that is no signed number of 64 bits is passed over. -/
theorem groupSize_ofCheckpoint (h : Value.lookup "group_size" entries = some (.integer z)) :
    (ofCheckpoint entries).groupSize =
      if -twoTo 63 ≤ z ∧ z < twoTo 63 then z.bmod (twoTo 32) else 128 := by
  have hread : (ofCheckpoint entries).groupSize =
      ((Value.lookup "group_size" entries).bind signed32?).getD 128 := rfl
  rw [hread, h, Option.bind_some, signed32?, Value.signed?]
  split_ifs with hrange <;> rfl

/-! ### Accepted checkpoints -/

/-- Groups are whole columns or have 32, 64 or 128 rows. -/
theorem mem_groupSizes_iff : z ∈ Support.groupSizes ↔ z = -1 ∨ z = 32 ∨ z = 64 ∨ z = 128 := by
  simp only [Support.groupSizes, List.mem_cons, List.not_mem_nil, or_false]

/-- An accepted checkpoint has the width and the group size that its integers name exactly where
these are a natural and a signed number of 32 bits. -/
theorem validate_ofCheckpoint_reads
    (h : (ofCheckpoint entries).validate capability = .ok type) :
    (∀ z, bitsEntry entries = some (.integer z) →
      (z = type.bits ↔ 0 ≤ z ∧ z < twoTo 32)) ∧
    ∀ z, Value.lookup "group_size" entries = some (.integer z) →
      (z ∈ Support.groupSizes ∧ z = (ofCheckpoint entries).groupSize ↔
        -twoTo 31 ≤ z ∧ z < twoTo 31) := by
  obtain ⟨hbits, hsize⟩ := bits_groupSize_of_validate h
  have hhalf : twoTo 31 = 2147483648 := rfl
  have hword : twoTo 32 = 4294967296 := rfl
  have hlong : twoTo 63 = 9223372036854775808 := rfl
  have hwide : twoTo 64 = 18446744073709551616 := rfl
  constructor
  · intro z hz
    have hwidth : type.bits = 4 ∨ type.bits = 8 := by cases type <;> decide
    have hread := bits_ofCheckpoint hz
    rw [← hbits, hword] at hread
    split_ifs at hread with hrange <;> omega
  · intro z hz
    have hread := groupSize_ofCheckpoint hz
    rw [mem_groupSizes_iff]
    constructor
    · rintro ⟨hmem, -⟩
      omega
    · intro hfits
      have hkept : z = (ofCheckpoint entries).groupSize := by
        rw [hread, if_pos (by omega), Int.bmod_eq_of_le_mul_two] <;> omega
      rw [← hkept, mem_groupSizes_iff] at hsize
      exact ⟨hsize, hkept⟩

/-- A checkpoint under the second name for the width, with one scale per column. -/
def eightBitColumns : List (String × Value) :=
  [("weight_bits", .integer 8), ("group_size", .integer (-1)), ("sym", .boolean true)]

/-- Eight bits and whole columns are accepted on a device that allows them, as the checkpoint
says. -/
theorem validate_ofCheckpoint_reads_eightBitColumns :
    (ofCheckpoint eightBitColumns).validate (some 80) = .ok .uint8b128 ∧
      (8 : Int) = WeightType.uint8b128.bits ∧ (-1 : Int) ∈ Support.groupSizes ∧
        -1 = (ofCheckpoint eightBitColumns).groupSize := by
  have hok : (ofCheckpoint eightBitColumns).validate (some 80) = .ok .uint8b128 := rfl
  obtain ⟨hbits, hsize⟩ := validate_ofCheckpoint_reads hok
  exact ⟨hok, (hbits 8 rfl).mpr (by decide), (hsize (-1) rfl).mpr (by decide)⟩

/-- A checkpoint whose width exceeds 32 bits. -/
def wideBits : List (String × Value) := [("bits", .integer 4294967300)]

/-- A checkpoint whose group size exceeds 32 bits. -/
def wideGroups : List (String × Value) :=
  [("bits", .integer 4), ("group_size", .integer 4294967424)]

/-- Accepted checkpoints need not be read as they say: a width of `2 ^ 32 + 4` bits is taken for
four, and groups of `2 ^ 32 + 128` rows for groups of 128. -/
theorem validate_ofCheckpoint_misreads :
    (¬ ∀ entries capability type z, (ofCheckpoint entries).validate capability = .ok type →
      bitsEntry entries = some (.integer z) → z = type.bits) ∧
    ¬ ∀ entries capability type z, (ofCheckpoint entries).validate capability = .ok type →
      Value.lookup "group_size" entries = some (.integer z) →
        z ∈ Support.groupSizes ∧ z = (ofCheckpoint entries).groupSize := by
  constructor
  · intro h
    exact absurd (h wideBits none .uint4b8 4294967300 rfl rfl) (by decide)
  · intro h
    exact absurd (h wideGroups none .uint4b8 4294967424 rfl rfl).1 (by decide)

end QuantSettings

end RoutedExperts
