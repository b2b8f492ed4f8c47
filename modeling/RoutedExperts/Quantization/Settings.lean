import RoutedExperts.Document.Value
import RoutedExperts.Quantization.Support
import RoutedExperts.Routing.Block

/-!
# Quantization settings

The settings of packed weights: how wide a weight is, how many rows share a scale, and two switches
of formats that grouped products do not run. `QuantSettings.ofCheckpoint` reads the loose form in
which checkpoints describe themselves, where every entry has a default.
-/

namespace RoutedExperts

/-- The settings of packed weights. -/
structure QuantSettings where
  bits : Nat
  /-- Rows that share a scale; not positive when a column has one scale. -/
  groupSize : Int
  /-- Whether rows are sorted by the size of their activations. -/
  activationOrder : Bool := false
  symmetric : Bool := true
  deriving DecidableEq, Repr

namespace QuantSettings

/-- Four-bit symmetric weights. -/
def int4 (groupSize : Int) : QuantSettings := { bits := 4, groupSize := groupSize }

/-- Eight-bit symmetric weights. -/
def int8 (groupSize : Int) : QuantSettings := { bits := 8, groupSize := groupSize }

instance : Inhabited QuantSettings := ⟨int4 128⟩

/-- A checkpoint's natural number, of which 32 bits are kept. -/
def word32? (v : Value) : Option Nat := v.size?.map (· % twoTo 32)

/-- A checkpoint's integer, of which 32 bits are kept. -/
def signed32? (v : Value) : Option Int := (v.signed? 64).map (Int.bmod · (twoTo 32))

/-- The settings that the entries of a checkpoint describe. The first of two names for an entry
decides, even when its value cannot be read. -/
def ofCheckpoint (entries : List (String × Value)) : QuantSettings :=
  let entry (key : String) := Value.lookup key entries
  { bits := (((entry "bits").orElse fun _ => entry "weight_bits").bind word32?).getD 4
    groupSize := ((entry "group_size").bind signed32?).getD 128
    activationOrder := ((entry "desc_act").bind Value.boolean?).getD false
    symmetric := (((entry "sym").orElse fun _ => entry "is_sym").bind Value.boolean?).getD true }

/-- Reads settings from a document. -/
def ofValue? (v : Value) : Option QuantSettings := do
  let fields ← v.fields? ["bits", "group_size", "desc_act", "is_sym"]
  return {
    bits := ← Value.required? (Value.natBelow? (twoTo 32)) "bits" fields
    groupSize := ← Value.required? (Value.signed? 32) "group_size" fields
    activationOrder := ← Value.defaulted? Value.boolean? false "desc_act" fields
    symmetric := ← Value.defaulted? Value.boolean? true "is_sym" fields }

/-- The weight type of the settings. -/
def type? (q : QuantSettings) : Option WeightType :=
  match q.bits, q.symmetric with
  | 4, true => some .uint4b8
  | 8, true => some .uint8b128
  | 4, false => some .uint4
  | 8, false => some .uint8
  | _, _ => none

/-- The scale groups of a column with this many rows. -/
def groups (q : QuantSettings) (rows : Nat) : Nat :=
  if q.groupSize ≤ 0 then 1 else Block.divUp rows q.groupSize.toNat

/-- The weight type, unless grouped products do not run the settings. -/
def validate (q : QuantSettings) (capability : Option Nat) : Except Error WeightType :=
  match q.type? with
  | none => .error (.weightBits q.bits)
  | some type =>
    if q.activationOrder then .error .activationOrder
    else if type.hasZeroPoint then .error (.asymmetric type)
    else if Support.admits type q.groupSize false capability then .ok type
    else .error (.deviceGroupSize type q.groupSize capability)

end QuantSettings

end RoutedExperts
