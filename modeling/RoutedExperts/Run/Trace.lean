import RoutedExperts.Layer.Basic
import RoutedExperts.Log.Event
import RoutedExperts.Run.Settings

/-!
# Events of a run

What a run reports, computed beside the work itself: the same checks decide which products take
place, so an event is listed exactly when its step is reached.
-/

namespace RoutedExperts

namespace Trace

/-- The run begins. -/
def started (s : RunSettings) : Event where
  severity := .info
  target := "marlin_moe::runner"
  message := "starting run"
  fields := [("settings", .rendering s.listing)]

/-- The slots have been grouped. -/
def aligned (block padded : Nat) : Event where
  severity := .debug
  target := "marlin_moe::runner"
  message := "aligned tokens"
  fields := [("moe_block_size", .number block), ("num_tokens_post_padded", .number padded)]

/-- A layer has been made. -/
def layerMade (l : Layer) : Event where
  severity := .debug
  target := "marlin_moe_core::moe::fused::layer"
  message := "created Marlin MoE layer"
  fields := [("num_experts", .number l.settings.experts), ("top_k", .number l.settings.chosen),
    ("hidden_size", .number l.settings.hidden),
    ("intermediate_size", .number l.settings.intermediate),
    ("scalar_type", .rendering l.gateUp.type.name), ("workspace_len", .number l.workspace.size)]

/-- A batch has been routed. -/
def routed (s : Forward.Sizes) (chosen : Nat) (r : Routing) : Event where
  severity := .debug
  target := "marlin_moe_core::moe::fused::fused_marlin_moe"
  message := "routed tokens"
  fields := [("num_tokens", .number s.tokens), ("num_experts", .number s.experts),
    ("topk", .number chosen), ("moe_block_size", .number r.block.size),
    ("num_tokens_post_padded", .number r.alignment.padded)]

/-- A grouped product is called. -/
def called (s : ProductShape) : Event where
  severity := .debug
  target := "marlin_moe_core::moe::fused::kernel_wrapper"
  message := "marlin_gemm_moe"
  fields := [("size_m", .number s.tokens), ("size_n", .number s.columns),
    ("size_k", .number s.rows), ("num_experts", .number s.experts), ("topk", .number s.chosen),
    ("moe_block_size", .number s.block), ("num_tokens_post_padded", .number s.padded),
    ("replicate_input", .switch s.replicated), ("apply_weights", .switch s.weighted)]

/-- The slots of one expert are worked on. -/
def segment (expert real padded : Nat) : Event where
  severity := .trace
  target := "marlin_moe_core::moe::fused::grouped_gemm"
  message := "grouped gemm expert segment"
  fields := [("expert", .number expert), ("real", .number real), ("padded", .number padded)]

/-- The experts that have slots to work on. -/
def segments (s : ProductShape) (plan : Plan) : List Event :=
  (List.range s.experts).filterMap fun expert =>
    let ids := plan.segment expert
    let real := (ids.filter (· < s.slots)).size
    if real = 0 then none else some (segment expert real ids.size)

/-- The events of one grouped product. -/
def product (c : GroupedCall) (workspace : Workspace) : List Event :=
  called c.shape :: match c.prepare workspace with
    | .ok operands => segments c.shape operands.plan
    | .error _ => []

/-- The events of the two projections of a gated network. -/
def gated (batch : Batch) (first second : PackedWeights) (workspace : Workspace) : List Event :=
  match Forward.gatedSizes batch first second with
  | .error _ => []
  | .ok (s, intermediate) =>
    if s.tokens = 0 then []
    else match Forward.route batch s.tokens s.experts with
      | .error _ => []
      | .ok r =>
        let chosen := batch.selection.count
        let up := Forward.tokenCall s batch first r false
        let activated := Tensor.zeros batch.hidden.element [s.tokens * chosen, intermediate]
        let down := Forward.slotCall s batch intermediate activated second r
        routed s chosen r :: product up workspace ++
          match up.prepare workspace with
          | .ok _ => product down workspace
          | .error _ => []

/-- The events of one pass through a layer. -/
def pass (l : Layer) (hidden logits : Tensor) : List Event :=
  match l.batch hidden logits with
  | .error _ => []
  | .ok batch =>
    gated batch ⟨l.gateUp.packed, l.gateUp.scales⟩ ⟨l.down.packed, l.down.scales⟩ l.workspace

/-- The run is over. -/
def completed (mode : Mode) (block : Block) : Event where
  severity := .info
  target := "marlin_moe"
  message := "run complete"
  fields := [("mode", .text mode.name), ("moe_block_size", .number block.size)]

end Trace

end RoutedExperts
