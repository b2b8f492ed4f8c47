import RoutedExperts.Layer.Forward
import RoutedExperts.Layer.Settings
import RoutedExperts.Quantization.Experts

/-!
# Layers of experts

A layer holds its settings, the packed weights of both projections, and a workspace that fits both.
`Layer.forward` hands the workspace on to the next pass.
-/

namespace RoutedExperts

/-- A gated network of experts with packed weights. -/
structure Layer where
  settings : LayerSettings
  /-- Gate and up weights. -/
  gateUp : Experts
  /-- Down weights. -/
  down : Experts
  workspace : Workspace

namespace Layer

/-- Refuses experts that are not packed as the settings say. -/
def checkExperts (name : String) (experts : Experts) (type : WeightType) (shape : List Nat) :
    Except Error Unit := do
  if experts.type ≠ type then throw (.packedAs name experts.type type)
  if experts.packed.shape ≠ shape then throw (.packedShape name experts.packed.shape shape)

/-- A workspace that fits both projections. -/
def workspaceFor (s : LayerSettings) : Workspace :=
  Workspace.forShapes [(s.gateUpColumns, s.hidden), (s.hidden, s.intermediate)]

/-- The layer of packed experts. -/
def ofExperts (s : LayerSettings) (gateUp down : Experts) : Except Error Layer := do
  let type ← s.quant.validate none
  checkExperts "w13" gateUp type (Experts.packedShape s.experts s.hidden s.gateUpColumns type)
  checkExperts "w2" down type (Experts.packedShape s.experts s.intermediate s.hidden type)
  return { settings := s, gateUp := gateUp, down := down, workspace := workspaceFor s }

/-- The layer of dense weights: gate and up of shape `[experts, hidden, 2 * intermediate]`, down of
shape `[experts, intermediate, hidden]`. -/
def ofDense (s : LayerSettings) (gateUp down : Tensor) : Except Error Layer := do
  let type ← s.quant.validate none
  let gateUp ← Experts.quantize gateUp type s.quant.groupSize
  let down ← Experts.quantize down type s.quant.groupSize
  ofExperts s gateUp down

/-- The batch of a pass: the leading dimensions of the hidden states are all tokens. -/
def batch (l : Layer) (hidden logits : Tensor) : Except Error Batch :=
  match hidden.shape.reverse with
  | [] => .error .hiddenScalar
  | features :: leading =>
    if features ≠ l.settings.hidden then .error (.hiddenFeatures features l.settings.hidden)
    else .ok
      { hidden := hidden.reshape [volume leading, features]
        gating := logits
        selection := ⟨l.settings.chosen, l.settings.renormalize⟩
        block := l.settings.block }

/-- One pass through the layer; the result has the shape of the hidden states. -/
def forward (l : Layer) (hidden logits : Tensor) : Except Error Tensor × Layer :=
  match l.batch hidden logits with
  | .error e => (.error e, l)
  | .ok batch =>
    let (outcome, after) := Forward.gated batch ⟨l.gateUp.packed, l.gateUp.scales⟩
      ⟨l.down.packed, l.down.scales⟩ l.workspace
    (outcome.map (·.reshape hidden.shape), { l with workspace := after })

end Layer

end RoutedExperts
