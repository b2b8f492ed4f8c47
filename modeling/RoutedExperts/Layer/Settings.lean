import RoutedExperts.Quantization.Settings

/-!
# Layer settings

The sizes of a layer of experts, how its weights are packed, and the block it works with.
-/

namespace RoutedExperts

/-- The settings of a layer of experts. -/
structure LayerSettings where
  experts : Nat
  chosen : Nat
  hidden : Nat
  intermediate : Nat
  renormalize : Bool
  quant : QuantSettings := default
  /-- A fixed block; chosen for each batch when there is none. -/
  block : Option Block := none
  deriving DecidableEq, Repr

namespace LayerSettings

/-- Reads a block from a document, supported or not. -/
def block? (v : Value) : Option Block := do
  let fields ← v.fields? ["moe_block_size"]
  return ⟨← Value.required? Value.size? "moe_block_size" fields⟩

/-- Reads settings from a document. -/
def ofValue? (v : Value) : Option LayerSettings := do
  let fields ← v.fields? ["num_experts", "top_k", "hidden_size", "intermediate_size",
    "renormalize", "quant", "block_config"]
  return {
    experts := ← Value.required? Value.size? "num_experts" fields
    chosen := ← Value.required? Value.size? "top_k" fields
    hidden := ← Value.required? Value.size? "hidden_size" fields
    intermediate := ← Value.required? Value.size? "intermediate_size" fields
    renormalize := ← Value.required? Value.boolean? "renormalize" fields
    quant := ← Value.required? QuantSettings.ofValue? "quant" fields
    block := ← Value.defaulted? (Value.nullable? block?) none "block_config" fields }

/-- The block for a batch of tokens. -/
def blockFor (s : LayerSettings) (tokens : Nat) : Block :=
  s.block.getD (Block.forBatch tokens s.chosen s.experts)

/-- The columns of the gate and up weights together. -/
def gateUpColumns (s : LayerSettings) : Nat := 2 * s.intermediate

end LayerSettings

end RoutedExperts
