import RoutedExperts.Layer.Forward
import RoutedExperts.Proofs.Product.Noninterference

/-!
# Sessions on one workspace

A workspace is handed from call to call and never cleared. A computation is `Oblivious` when its
outcome depends on the workspace by its size alone and the size is kept. Grouped products are
oblivious, because every region of the buffer is written before it is read; so are sequences of
oblivious computations, and with them the forward passes. Along every `history` of calls this makes
the reuse of the workspace invisible.
-/

namespace RoutedExperts

namespace GroupedCall

variable {c : GroupedCall} {w₁ w₂ : Workspace}

/-- The checks of a call look at the size of the workspace and at nothing else of it. -/
theorem prepare_congr (c : GroupedCall) (h : w₁.size = w₂.size) : c.prepare w₁ = c.prepare w₂ := by
  have hfits : w₁.fits = w₂.fits := by
    funext columns rows block
    rw [Workspace.fits, Workspace.fits, h]
  simp only [prepare, hfits, h]

/-- What is left in the workspace does not show in the rows of the slots. -/
theorem Accepted.slots_run_eq {o : Operands} {groupSize : Int} {scales : Tensor}
    (h₁ : c.Accepted w₁ o groupSize scales) (h₂ : c.Accepted w₂ o groupSize scales) :
    (Engine.run c.shape o w₁.buffer).slots = (Engine.run c.shape o w₂.buffer).slots := by
  have hcolumns := h₁.sound.columns_pos
  have hsize₁ := (Engine.sized_after (o := o) h₁.room c.shape.experts).slots_size
  have hsize₂ := (Engine.sized_after (o := o) h₂.room c.shape.experts).slots_size
  rw [← Engine.run_eq_after] at hsize₁ hsize₂
  apply Array.ext
  · rw [hsize₁, hsize₂]
  intro i hi₁ hi₂
  have hslot : i / c.shape.columns < c.shape.slots := by
    apply Nat.div_lt_of_lt_mul
    rwa [Nat.mul_comm, ← hsize₁]
  have hentry := (h₁.slotEntry_run hslot (Nat.mod_lt i hcolumns)).trans
    (h₂.slotEntry_run hslot (Nat.mod_lt i hcolumns)).symm
  simpa only [Engine.slotEntry, div_mul_add_mod, Array.getD_eq_getD_getElem?,
    Array.getElem?_eq_getElem hi₁, Array.getElem?_eq_getElem hi₂, Option.getD_some] using hentry

/-- The outcome of a call depends on the workspace by its size alone. -/
theorem execute_congr (c : GroupedCall) (h : w₁.size = w₂.size) :
    (c.execute w₁).1 = (c.execute w₂).1 := by
  cases hprepare : c.prepare w₁ with
  | error e => simp only [execute, hprepare, ← c.prepare_congr h]
  | ok o =>
    obtain ⟨groupSize, scales, h₁⟩ := (prepare_eq_ok_iff c w₁ o).mp hprepare
    have h₂ : c.Accepted w₂ o groupSize scales := { h₁ with room := h ▸ h₁.room }
    rw [h₁.execute_eq, h₂.execute_eq, h₁.slots_run_eq h₂]

/-- A call keeps the size of its workspace. -/
theorem size_execute (c : GroupedCall) (w : Workspace) : (c.execute w).2.size = w.size := by
  cases hprepare : c.prepare w with
  | error e => simp only [execute, hprepare]
  | ok o =>
    simp only [execute, hprepare, Workspace.size]
    exact Engine.size_scratch_after w.buffer c.shape.experts

/-- A call that is refused leaves the workspace as it was. -/
theorem execute_of_error {c : GroupedCall} {w : Workspace} {α : Type} {f : Array Float32 → α}
    {e : Error} (h : (c.execute w).1.map f = .error e) : (c.execute w).2 = w := by
  cases hprepare : c.prepare w with
  | error e => simp only [execute, hprepare]
  | ok o => simp only [execute, hprepare, Except.map, reduceCtorEq] at h

end GroupedCall

/-! ### Computations that do not see what a workspace holds -/

/-- The outcome depends on the workspace by its size alone, and the size is kept. -/
structure Oblivious {α : Type} (f : Workspace → Except Error α × Workspace) : Prop where
  outcome_congr : ∀ w₁ w₂ : Workspace, w₁.size = w₂.size → (f w₁).1 = (f w₂).1
  size_after : ∀ w, (f w).2.size = w.size

namespace Oblivious

variable {α β : Type}

/-- A computation that does not touch the workspace. -/
theorem const (outcome : Except Error α) : Oblivious fun w => (outcome, w) :=
  ⟨fun _ _ _ => rfl, fun _ => rfl⟩

/-- What is made of the result does not see the workspace either. -/
theorem map {f : Workspace → Except Error α × Workspace} (hf : Oblivious f) (g : α → β) :
    Oblivious fun w => ((f w).1.map g, (f w).2) :=
  ⟨fun w₁ w₂ h => congrArg (Except.map g) (hf.outcome_congr w₁ w₂ h), hf.size_after⟩

/-- A computation `h` that fails with `f`, and otherwise goes on with the result of `f` in the
workspace that `f` left. -/
theorem bind {f : Workspace → Except Error α × Workspace} (hf : Oblivious f)
    {h : Workspace → Except Error β × Workspace}
    (herror : ∀ w e after, f w = (.error e, after) → h w = (.error e, after))
    (hok : ∀ a, ∃ g, Oblivious g ∧ ∀ w after, f w = (.ok a, after) → h w = g after) :
    Oblivious h := by
  constructor
  · intro w₁ w₂ hw
    have houtcome := hf.outcome_congr w₁ w₂ hw
    have hsize : (f w₁).2.size = (f w₂).2.size := by rw [hf.size_after, hf.size_after, hw]
    rcases hf₁ : f w₁ with ⟨outcome₁, after₁⟩
    rcases hf₂ : f w₂ with ⟨outcome₂, after₂⟩
    rw [hf₁, hf₂] at houtcome hsize
    obtain rfl : outcome₁ = outcome₂ := houtcome
    cases outcome₁ with
    | error e => rw [herror w₁ e after₁ hf₁, herror w₂ e after₂ hf₂]
    | ok a =>
      obtain ⟨g, hg, heq⟩ := hok a
      rw [heq w₁ after₁ hf₁, heq w₂ after₂ hf₂]
      exact hg.outcome_congr after₁ after₂ hsize
  · intro w
    have hsize := hf.size_after w
    rcases hfw : f w with ⟨outcome, after⟩
    rw [hfw] at hsize
    cases outcome with
    | error e =>
      rw [herror w e after hfw]
      exact hsize
    | ok a =>
      obtain ⟨g, hg, heq⟩ := hok a
      rw [heq w after hfw, hg.size_after]
      exact hsize

end Oblivious

/-- A call does not see what its workspace holds. -/
theorem GroupedCall.oblivious_execute (c : GroupedCall) : Oblivious c.execute :=
  ⟨fun _ _ h => c.execute_congr h, c.size_execute⟩

/-- The products of the tokens do not see what the workspace holds. -/
theorem GroupedCall.oblivious_products (c : GroupedCall) : Oblivious c.products :=
  c.oblivious_execute.map _

/-- The products of the slots do not see what the workspace holds. -/
theorem GroupedCall.oblivious_slotProducts (c : GroupedCall) : Oblivious c.slotProducts :=
  c.oblivious_execute.map _

namespace Forward

/-- A projection does not see what its workspace holds. -/
theorem oblivious_project (batch : Batch) (w : PackedWeights) : Oblivious (project batch w) := by
  unfold project
  split
  · exact .const _
  · split
    · exact .const _
    · split
      · exact .const _
      · exact GroupedCall.oblivious_products _

/-- A gated pass does not see what its workspace holds, though its second product uses what the
first one left. -/
theorem oblivious_gated (batch : Batch) (first second : PackedWeights) :
    Oblivious (gated batch first second) := by
  unfold gated
  split
  · exact .const _
  · split
    · exact .const _
    · split
      · exact .const _
      · rename_i s intermediate _ _ _ r _
        apply (tokenCall s batch first r false).oblivious_slotProducts.bind
        · intro w e after hfirst
          simp only [hfirst]
        · intro gateUp
          cases hactivate : activate s batch gateUp with
          | error e =>
            refine ⟨_, .const (.error e), ?_⟩
            intro w after hfirst
            simp only [hfirst, hactivate]
          | ok activated =>
            refine ⟨_, (slotCall s batch intermediate activated second r).oblivious_products, ?_⟩
            intro w after hfirst
            simp only [hfirst, hactivate]

end Forward

/-! ### Histories -/

/-- A call that works in a workspace. -/
inductive Request where
  | products (call : GroupedCall)
  | slotProducts (call : GroupedCall)
  | project (batch : Batch) (weights : PackedWeights)
  | gated (batch : Batch) (first second : PackedWeights)

namespace Request

open GroupedCall (usedWorkspace)

/-- Whether a call is a single grouped product. -/
def IsProduct : Request → Prop
  | products _ | slotProducts _ => True
  | project .. | gated .. => False

/-- The outcome of a call and the workspace it leaves. -/
def run : Request → Workspace → Except Error Tensor × Workspace
  | products call => call.products
  | slotProducts call => call.slotProducts
  | project batch weights => Forward.project batch weights
  | gated batch first second => Forward.gated batch first second

/-- No kind of request sees what its workspace holds. -/
theorem oblivious_run (r : Request) : Oblivious r.run := by
  cases r with
  | products call => exact call.oblivious_products
  | slotProducts call => exact call.oblivious_slotProducts
  | project batch weights => exact Forward.oblivious_project batch weights
  | gated batch first second => exact Forward.oblivious_gated batch first second

/-- A grouped product that is refused leaves the workspace as it was. -/
theorem run_of_error {r : Request} (hr : r.IsProduct) {w : Workspace} {e : Error}
    (h : (r.run w).1 = .error e) : (r.run w).2 = w := by
  cases r with
  | products call => exact GroupedCall.execute_of_error h
  | slotProducts call => exact GroupedCall.execute_of_error h
  | project batch weights => exact hr.elim
  | gated batch first second => exact hr.elim

/-- One call of a history. -/
structure Step where
  request : Request
  before : Workspace
  outcome : Except Error Tensor
  after : Workspace

/-- Calls one after the other, each in the workspace that the one before it left. -/
def history : List Request → Workspace → List Step
  | [], _ => []
  | r :: rest, w => ⟨r, w, (r.run w).1, (r.run w).2⟩ :: history rest (r.run w).2

/-- A call in a workspace of the given size that shows nothing of what the workspace held. -/
structure Step.Clean (size : Nat) (step : Step) : Prop where
  outcome_eq : step.outcome = (step.request.run (.ofSize size)).1
  before_size : step.before.size = size
  after_size : step.after.size = size
  after_of_error : step.request.IsProduct → ∀ e, step.outcome = .error e →
    step.after = step.before

/-- Every request leaves a clean step, whatever came before. -/
theorem clean_run (r : Request) (w : Workspace) :
    Step.Clean w.size ⟨r, w, (r.run w).1, (r.run w).2⟩ where
  outcome_eq := r.oblivious_run.outcome_congr w _ Array.size_replicate.symm
  before_size := rfl
  after_size := r.oblivious_run.size_after w
  after_of_error := fun hr _ h => run_of_error hr h

/-- Every call of a history has the outcome it has in a fresh workspace of the same size, the size
never changes, and a refused product changes nothing. -/
theorem history_clean (requests : List Request) (w : Workspace) :
    (history requests w).map Step.request = requests ∧
      ∀ step ∈ history requests w, step.Clean w.size := by
  induction requests generalizing w with
  | nil => exact ⟨rfl, fun _ hstep => absurd hstep List.not_mem_nil⟩
  | cons r rest ih =>
    obtain ⟨hrequests, hclean⟩ := ih (r.run w).2
    rw [r.oblivious_run.size_after w] at hclean
    refine ⟨congrArg (r :: ·) hrequests, ?_⟩
    intro step hstep
    rcases List.mem_cons.mp hstep with rfl | hrest
    · exact clean_run r w
    · exact hclean step hrest

/-- A product, one that finds no room, and a product again. -/
def sampleSession : List Request :=
  [.slotProducts .tightCall, .products .looseCall, .products .tightCall]

/-- In a session on a used workspace, with a request that is refused between two that succeed, every
step is clean. -/
theorem history_clean_sampleSession : ∃ first second third,
    history sampleSession usedWorkspace = [first, second, third] ∧
      (first.Clean usedWorkspace.size ∧ ∃ rows, first.outcome = .ok rows) ∧
      (second.Clean usedWorkspace.size ∧ ∃ e, second.outcome = .error e) ∧
      third.Clean usedWorkspace.size ∧ ∃ sums, third.outcome = .ok sums := by
  obtain ⟨_, hclean⟩ := history_clean sampleSession usedWorkspace
  have hhistory : ∃ first second third, history sampleSession usedWorkspace =
      [first, second, third] ∧ first.request = .slotProducts .tightCall ∧
        second.request = .products .looseCall ∧ third.request = .products .tightCall :=
    ⟨_, _, _, rfl, rfl, rfl, rfl⟩
  obtain ⟨first, second, third, hsteps, hfirst, hsecond, hthird⟩ := hhistory
  have hfirst' := hclean first (by rw [hsteps]; exact List.mem_cons_self)
  have hsecond' := hclean second (by rw [hsteps]; simp)
  have hthird' := hclean third (by rw [hsteps]; simp)
  obtain ⟨_, _, _, htight⟩ := GroupedCall.exists_accepted_tightCall
  have hsize : usedWorkspace.size = Workspace.required 64 64 16 := Array.size_replicate
  refine ⟨first, second, third, hsteps, ⟨hfirst', ?_⟩, ⟨hsecond', ?_⟩, hthird', ?_⟩
  · rw [hfirst'.outcome_eq, hfirst, hsize]
    exact ⟨_, htight.slotProducts_eq⟩
  · rw [hsecond'.outcome_eq, hsecond]
    cases hloose : (run (.products .looseCall) (.ofSize usedWorkspace.size)).1 with
    | error e => exact ⟨e, rfl⟩
    | ok out =>
      obtain ⟨_, _, _, hroom⟩ := GroupedCall.exists_accepted_of_execute hloose
      have hroom : Workspace.required 64 64 32 ≤ (Workspace.ofSize usedWorkspace.size).size :=
        hroom.room
      rw [Workspace.ofSize, Workspace.size, Array.size_replicate, hsize] at hroom
      exact absurd hroom (by decide)
  · rw [hthird'.outcome_eq, hthird, hsize]
    exact ⟨_, htight.products_eq⟩

end Request

end RoutedExperts
