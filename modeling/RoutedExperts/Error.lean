import RoutedExperts.Tensor.Basic
import RoutedExperts.Quantization.WeightType

/-!
# Causes of failure

`Error` has one constructor per cause, with the sizes that explain it. `Error.kind` sorts the causes
into shapes that do not fit, settings that are not supported, operations on tensors that are not
defined, and computations that have no result at all; `Error.message` words them.
-/

namespace RoutedExperts

/-- The four sorts of failure. -/
inductive ErrorKind where
  | shape | unsupported | device | fatal
  deriving DecidableEq, Repr

/-- Why an operation gave no result. -/
inductive Error where
  -- Weights and scales.
  | columnsUneven (columns : Nat)
  | rowsUneven (rows : Nat)
  | groupUneven (rows : Nat) (groupSize : Int)
  | groupCount (rows groups : Nat)
  | scaleChunks (shape : List Nat) (chunk : Nat)
  | tileRows (rows : Nat)
  | tileColumns (columns : Nat)
  | valueCount (rows columns found : Nat)
  | wordCount (expected rows columns found : Nat)
  | weightCount (rows columns found : Nat)
  | groupLength (groupSize : Int) (rows : Nat)
  | emptyGroup
  | emptyExpert
  | weightBits (bits : Nat)
  | activationOrder
  | asymmetric (type : WeightType)
  | deviceGroupSize (type : WeightType) (groupSize : Int) (capability : Option Nat)
  | groupSize (type : WeightType) (groupSize : Int)
  | zeroPoint (type : WeightType)
  -- Routing.
  | logitsRank (shape : List Nat)
  | chosenCount (chosen experts : Nat)
  | blockSize (size : Nat)
  | alignment (block experts : Nat)
  | indexRank (name : String) (shape : List Nat)
  | indexElement (name : String) (element : Element)
  | idCount (found padded : Nat)
  | offsetCount (found expected : Nat)
  | offsetStart (found : Int)
  | offsetEnd (padded : Nat) (found : Int)
  | offsetsDecrease (expert : Nat) (before after : Int)
  | offsetUneven (offset : Int) (block : Nat)
  | repeatedSlot (slot : Nat)
  -- Grouped products.
  | emptyProduct (tokens columns rows : Nat)
  | noExperts
  | noSlots
  | activationElement (element : Element)
  | activationShape (found : List Nat) (tokens rows : Nat) (replicated : Bool)
  | packedElement (element : Element)
  | packedRank (shape : List Nat)
  | packedExperts (found expected : Nat)
  | packedTiles (found rows : Nat)
  | packedRow (words columns : Nat)
  | packFactor (factor words : Nat)
  | scalesRank (shape : List Nat)
  | scalesShape (found : List Nat) (experts columns : Nat)
  | scalesElement (element : Element)
  | productGroupSize (groupSize : Int) (type : WeightType)
  | weightsMissing
  | weightsShape (found : List Nat) (tokens chosen : Nat)
  | workspaceTooSmall (size columns rows block required : Nat)
  -- Forward passes and layers.
  | hiddenRank (shape : List Nat)
  | expertsRank (name : String) (shape : List Nat)
  | expertScalesRank (name : String) (shape : List Nat)
  | projectionInput (rows columns : Nat)
  | projectionExperts (first second : Nat)
  | projectionOutput (columns intermediate : Nat)
  | gatingShape (found : List Nat) (tokens experts : Nat)
  | oddColumns (columns : Nat)
  | packedAs (name : String) (found expected : WeightType)
  | packedShape (name : String) (found expected : List Nat)
  | hiddenScalar
  | hiddenFeatures (found expected : Nat)
  -- Synthetic problems and references.
  | problemChosen (chosen experts : Nat)
  | missingWeight
  -- Operations on tensors.
  | rank (expected : Nat) (shape : List Nat)
  | emptyReduction
  | matrixProduct (left right : List Nat)
  | rowIndex (index rows : Nat)
  | narrow (shape : List Nat) (axis start length : Nat)
  | dimension (operation : String) (index : Nat) (shape : List Nat)
  deriving DecidableEq, Repr

namespace Error

/-- The sort of a failure. -/
def kind : Error → ErrorKind
  | emptyGroup | emptyExpert | missingWeight => .fatal
  | weightBits _ | activationOrder | asymmetric _ | deviceGroupSize .. | groupSize .. | zeroPoint _
  | chosenCount .. | blockSize _ | alignment .. | indexElement .. | activationElement _
  | packedElement _ | packFactor .. | scalesElement _ | productGroupSize .. | packedAs ..
  | problemChosen .. => .unsupported
  | rank .. | emptyReduction | matrixProduct .. | rowIndex .. | narrow .. | dimension .. => .device
  | _ => .shape

/-- The group sizes that products support, as messages list them. -/
def groupSizeList : String := "[-1, 32, 64, 128]"

/-- The cause of a failure in words. -/
def detail : Error → String
  | columnsUneven n =>
    s!"Marlin requires size_n ({n}) to be divisible by 64 (MARLIN_MOE_MIN_THREAD_N)"
  | rowsUneven k =>
    s!"Marlin requires size_k ({k}) to be divisible by 64 (MARLIN_MOE_MIN_THREAD_K)"
  | groupUneven k g => s!"Marlin requires size_k ({k}) to be divisible by group_size ({g})"
  | groupCount k groups => s!"size_k ({k}) cannot be split into {groups} scale groups"
  | scaleChunks shape chunk =>
    s!"scales of shape {shapeText shape} cannot be permuted in chunks of {chunk}"
  | tileRows k => s!"size_k ({k}) must be a multiple of 16"
  | tileColumns n => s!"size_n ({n}) must be a multiple of 64"
  | valueCount k n found => s!"expected {k * n} quantized values for [{k}, {n}], got {found}"
  | wordCount expected k n found => s!"expected {expected} packed words for [{k}, {n}], got {found}"
  | weightCount k n found => s!"expected {k * n} weights for [{k}, {n}], got {found}"
  | groupLength g k => s!"group_size {g} does not divide size_k {k}"
  | emptyGroup => "a matrix without rows has no groups"
  | emptyExpert => "an expert without weights cannot be quantized"
  | weightBits bits => s!"{bits}-bit Marlin weights are not supported"
  | activationOrder => "act-order (desc_act) is not supported for MoE experts"
  | asymmetric type => s!"asymmetric ({type.name}) MoE experts are not supported"
  | deviceGroupSize type g capability =>
    let level := match capability with
      | none => "None"
      | some c => s!"Some({c})"
    s!"Marlin does not support {type.name} with group_size {g} on capability {level}. " ++
      s!"Supported group sizes: {groupSizeList}"
  | groupSize type g =>
    s!"Marlin does not support {type.name} with group_size {g}. " ++
      s!"Supported group sizes: {groupSizeList}"
  | zeroPoint type => s!"zero-point quantization ({type.name}) is not supported"
  | logitsRank shape =>
    s!"router logits must be [num_tokens, num_experts], got {shapeText shape}"
  | chosenCount k experts => s!"k ({k}) must be in 1..={experts} (num_experts)"
  | blockSize size => s!"moe_block_size {size} is not supported. Supported: [16, 32, 48, 64]"
  | alignment block experts =>
    s!"token alignment needs a non-zero block size and expert count (got {block} and {experts})"
  | indexRank name shape => s!"{name} must be 1D, got {shapeText shape}"
  | indexElement name element => s!"{name} must be an integer tensor, got {element.name}"
  | idCount found padded =>
    s!"sorted_ids has {found} entries, num_tokens_post_padded is {padded}"
  | offsetCount found expected =>
    s!"expert_offsets has {found} entries, expected num_experts + 1 = {expected}"
  | offsetStart found => s!"expert_offsets must start at 0, got {found}"
  | offsetEnd padded found =>
    s!"expert_offsets must end at num_tokens_post_padded {padded}, got {found}"
  | offsetsDecrease expert before after =>
    s!"expert_offsets decrease at expert {expert}: {before} > {after}"
  | offsetUneven offset block =>
    s!"expert offset {offset} is not a multiple of moe_block_size {block}"
  | repeatedSlot slot => s!"token slot {slot} appears more than once in sorted_ids"
  | emptyProduct m n k => s!"size_m, size_n and size_k must be positive (got {m}, {n}, {k})"
  | noExperts => "num_experts must be at least 1"
  | noSlots => "topk must be at least 1"
  | activationElement element => s!"activation dtype {element.name} is not supported"
  | activationShape found rows k replicated =>
    s!"a has shape {shapeText found}, expected [{rows}, {k}] (replicate_input={replicated})"
  | packedElement element => s!"b_q_weights must hold packed U32 words, got {element.name}"
  | packedRank shape => s!"b_q_weights must be 3D, got {shapeText shape}"
  | packedExperts found expected =>
    s!"b_q_weights holds {found} experts, num_experts is {expected}"
  | packedTiles found k => s!"b_q_weights has {found} K tiles, size_k {k} needs {k / 16}"
  | packedRow words n => s!"b_q_weights row of {words} words does not pack size_n {n}"
  | packFactor factor words =>
    s!"pack factor {factor} (b_q_weights row of {words} words) is not a Marlin format"
  | scalesRank shape => s!"b_scales must be 3D, got {shapeText shape}"
  | scalesShape found experts n =>
    s!"b_scales has shape {shapeText found}, expected [{experts}, num_groups, {n}]"
  | scalesElement element => s!"b_scales dtype {element.name} is not a float type"
  | productGroupSize g type =>
    s!"group_size {g} is not supported for {type.name}. Supported: {groupSizeList}"
  | weightsMissing => "apply_weights is set but no topk_weights were given"
  | weightsShape found m topk =>
    s!"topk_weights has shape {shapeText found}, expected [{m}, {topk}]"
  | workspaceTooSmall size n k block required =>
    s!"workspace holds {size} elements, " ++
      s!"size_n={n} size_k={k} moe_block_size={block} need {required}"
  | hiddenRank shape => s!"hidden states must be [num_tokens, K], got {shapeText shape}"
  | expertsRank name shape => s!"{name} must be [E, K / 16, packed N], got {shapeText shape}"
  | expertScalesRank name shape => s!"{name} must be [E, num_groups, N], got {shapeText shape}"
  | projectionInput k columns => s!"w1 consumes K={k}, hidden_states have {columns} columns"
  | projectionExperts first second => s!"w1 has {first} experts, w2 has {second}"
  | projectionOutput n intermediate =>
    s!"w1 produces N={n}, w2 expects 2 * {intermediate} gate+up columns"
  | gatingShape found tokens experts =>
    s!"gating output has shape {shapeText found}, expected [{tokens}, {experts}]"
  | oddColumns columns => s!"silu_and_mul needs an even column count, got {columns}"
  | packedAs name found expected =>
    s!"{name} is packed as {found.name}, config expects {expected.name}"
  | packedShape name found expected =>
    s!"{name} qweight has shape {shapeText found}, expected {shapeText expected}"
  | hiddenScalar => "hidden states must have at least 1 dimension"
  | hiddenFeatures found expected =>
    s!"hidden states have {found} features, layer expects {expected}"
  | problemChosen topk experts => s!"topk {topk} must be in 1..={experts} (num_experts)"
  | missingWeight => "a routed slot has no weight"
  | rank expected shape =>
    s!"unexpected rank, expected: {expected}, got: {shape.length} ({shapeText shape})"
  | emptyReduction => "empty tensor for reduce"
  | matrixProduct left right =>
    s!"shape mismatch in matmul, lhs: {shapeText left}, rhs: {shapeText right}"
  | rowIndex index rows => s!"index-select invalid index {index} with dim size {rows}"
  | narrow shape axis start length =>
    let cause := if shape.getD axis 0 < start then "start > dim_len" else "start + len > dim_len"
    s!"narrow invalid args {cause}: {shapeText shape}, dim: {axis}, start: {start}, len:{length}"
  | dimension operation index shape =>
    s!"{operation}: dimension index {index} out of range for shape {shapeText shape}"

/-- The message of a failure, which begins with its sort. -/
def message (e : Error) : String :=
  match e.kind with
  | .shape => "shape mismatch: " ++ e.detail
  | .unsupported => "unsupported configuration: " ++ e.detail
  | .device => "device execution failure: " ++ e.detail
  | .fatal => e.detail

end Error

end RoutedExperts
