import RoutedExperts.Proofs.Product.CheckedEngine

/-!
# No access of a call is out of range

A call reads the offsets and the ids of its routing and reorders its scales before the engine runs.
`Guarded` computations are refused with an error like the checks of a call, and end with `none` when
an access is out of range. Each check is guarded by the checks before it alone
(`GroupedCall.runs_prepareGuarded`), and an accepted call hands operands of fitting sizes to the
engine (`Accepted.fitting`). So a call with all its accesses checked has the outcome of the call,
whatever its tensors are (`slotProductsChecked_eq_some`, `productsChecked_eq_some`).
-/

namespace RoutedExperts

/-! ### Guarded computations -/

/-- A computation that can be refused, and that ends with `none` at an access out of range. -/
abbrev Guarded (α : Type) : Type := ExceptT Error Option α

/-- Goes on with an element that is there. -/
def Guarded.access {α : Type} (x : Option α) : Guarded α := ExceptT.lift x

/-- A guarded computation makes no access out of range and has the given outcome. -/
def Guarded.Runs {α : Type} (x : Guarded α) (outcome : Except Error α) : Prop :=
  x.run = some outcome

namespace Guarded.Runs

variable {α β : Type}

/-- A computation without accesses. -/
theorem lift (x : Except Error α) : Runs (liftM x) x := rfl

/-- Guarded computations run behind each other, the second for every result of the first. -/
theorem bind {x : Guarded α} {y : Except Error α} {f : α → Guarded β} {g : α → Except Error β}
    (hx : x.Runs y) (hf : ∀ a, y = .ok a → (f a).Runs (g a)) : (x >>= f).Runs (y >>= g) := by
  have hrun : (x >>= f).run = x.run.bind (ExceptT.bindCont f) := rfl
  rw [Runs, hrun, hx, Option.bind_some]
  cases y with
  | error e => rfl
  | ok a => exact hf a rfl

/-- An access in range goes on with the element. -/
theorem found {x : Option α} {a : α} (hx : x = some a) : (Guarded.access x).Runs (.ok a) := by
  rw [hx]
  rfl

/-- An access in range goes on with the element. -/
theorem access {x : Option α} {a : α} {f : α → Guarded β} {y : Except Error β} (hx : x = some a)
    (hf : (f a).Runs y) : (Guarded.access x >>= f).Runs y := by
  rw [hx]
  exact hf

/-- A choice runs if the branch taken does. -/
theorem ite {p : Prop} [Decidable p] {x x' : Guarded α} {y y' : Except Error α}
    (hpos : p → x.Runs y) (hneg : ¬ p → x'.Runs y') :
    Runs (if p then x else x') (if p then y else y') := by
  by_cases h : p
  · simpa only [h, ite_true] using hpos h
  · simpa only [h, ite_false] using hneg h

/-- Refused or accepted, a guarded loop makes no access out of range if none of its steps does and
each of them keeps what the next one needs. -/
theorem foldlM {step : β → α → Guarded β} {total : β → α → Except Error β} (Inv : β → Prop)
    {l : List α} (hstep : ∀ b, Inv b → ∀ a ∈ l,
      (step b a).Runs (total b a) ∧ ∀ b', total b a = .ok b' → Inv b')
    {b : β} (hb : Inv b) : Runs (l.foldlM step b) (l.foldlM total b) := by
  induction l generalizing b with
  | nil => rfl
  | cons a l ih =>
    obtain ⟨ha, hnext⟩ := hstep b hb a List.mem_cons_self
    rw [List.foldlM_cons, List.foldlM_cons]
    exact ha.bind fun b' hb' => ih (fun b hb a' ha' => hstep b hb a' (List.mem_cons_of_mem a ha'))
      (hnext b' hb')

end Guarded.Runs

open Guarded

/-! ### Routing -/

namespace Plan

/-- The first expert whose end lies before its beginning. -/
def decreaseChecked? (offsets : Array Int) : Option (Option (Nat × Int × Int)) :=
  (List.range (offsets.size - 1)).findSomeM? fun e => do
    let before ← offsets[e]?
    let after ← offsets[e + 1]?
    return if after < before then some (e, before, after) else none

/-- Refuses offsets that do not cut the places into whole blocks. -/
def checkOffsetsGuarded (offsets : Array Int) (padded experts block : Nat) : Guarded Unit := do
  if offsets.size ≠ experts + 1 then throw (.offsetCount offsets.size (experts + 1))
  let first ← access offsets[0]?
  if first ≠ 0 then throw (.offsetStart first)
  let last ← access offsets[experts]?
  if last ≠ padded then throw (.offsetEnd padded last)
  let decrease ← access (decreaseChecked? offsets)
  if let some (e, before, after) := decrease then throw (.offsetsDecrease e before after)
  if let some offset := offsets.find? fun o => o.toNat % block ≠ 0 then
    throw (.offsetUneven offset block)

/-- A search whose tests are all in range finds what the search without checks does. -/
theorem findSomeM?_eq_some {α β : Type} {f : α → Option (Option β)} {g : α → Option β} {l : List α}
    (h : ∀ a ∈ l, f a = some (g a)) : l.findSomeM? f = some (l.findSome? g) := by
  induction l with
  | nil => rfl
  | cons a l ih =>
    have hl := ih fun a' ha' => h a' (List.mem_cons_of_mem a ha')
    rw [List.findSomeM?, h a List.mem_cons_self, List.findSome?_cons]
    cases g a with
    | none => exact hl
    | some b => rfl

/-- Looking for a decrease of the offsets makes no access out of range. -/
theorem decreaseChecked?_eq_some (offsets : Array Int) :
    decreaseChecked? offsets = some (decrease? offsets) := by
  apply findSomeM?_eq_some
  intro e he
  have he : e < offsets.size - 1 := List.mem_range.mp he
  have hbefore : e < offsets.size := by omega
  have hafter : e + 1 < offsets.size := by omega
  rw [getElem?_eq_some_getD hbefore 0, getElem?_eq_some_getD hafter 0]
  rfl

/-- The check of the offsets makes no access out of range, whatever they are. -/
theorem runs_checkOffsetsGuarded (offsets : Array Int) (padded experts block : Nat) :
    (checkOffsetsGuarded offsets padded experts block).Runs
      (checkOffsets offsets padded experts block) := by
  refine Runs.ite (fun _ => rfl) fun hsize => ?_
  have hsize : offsets.size = experts + 1 := not_not.mp hsize
  have hfirst : 0 < offsets.size := by omega
  have hlast : experts < offsets.size := by omega
  refine Runs.access (getElem?_eq_some_getD hfirst 0) (Runs.ite (fun _ => rfl) fun _ => ?_)
  refine Runs.access (getElem?_eq_some_getD hlast 0) (Runs.ite (fun _ => rfl) fun _ => ?_)
  refine Runs.access (decreaseChecked?_eq_some offsets) ?_
  cases decrease? offsets with
  | some d => rfl
  | none =>
    cases offsets.find? fun o => o.toNat % block ≠ 0 with
    | some o => rfl
    | none => rfl

/-- Takes one id into the places read so far. -/
def placeGuarded (slots : Nat) (state : Array Nat × Array Bool) (id : Int) :
    Guarded (Array Nat × Array Bool) := do
  if 0 ≤ id ∧ id < slots then
    let seen ← access state.2[id.toNat]?
    if seen then throw (.repeatedSlot id.toNat)
    else return (state.1.push id.toNat, state.2.setIfInBounds id.toNat true)
  else return (state.1.push slots, state.2)

/-- Marking an id as seen is in range where there is a mark for every slot. -/
theorem runs_placeGuarded {slots : Nat} {state : Array Nat × Array Bool}
    (hseen : state.2.size = slots) (id : Int) :
    (placeGuarded slots state id).Runs (place slots state id) := by
  refine Runs.ite (fun hid => ?_) fun _ => rfl
  have hplace : id.toNat < state.2.size := by omega
  refine Runs.access (getElem?_eq_some_getD hplace false) ?_
  exact Runs.ite (fun _ => rfl) fun _ => rfl

/-- Taking ids in keeps one mark for each slot. -/
theorem size_of_place {slots : Nat} {state state' : Array Nat × Array Bool} {id : Int}
    (h : place slots state id = .ok state') : state'.2.size = state.2.size := by
  simp only [place] at h
  split at h
  · rw [refuse_eq_ok_iff, Except.ok.injEq] at h
    rw [← h.2, Array.size_setIfInBounds]
  · rw [Except.ok.injEq] at h
    rw [← h]

/-- The ids with one padding number, or the first slot that occurs twice. -/
def normalizeGuarded (slots : Nat) (ids : Array Int) : Guarded (Array Nat) := do
  let (normalized, _) ← ids.toList.foldlM (placeGuarded slots) (#[], Array.replicate slots false)
  return normalized

/-- Sorting out the ids makes no access out of range, whatever they are. -/
theorem runs_normalizeGuarded (slots : Nat) (ids : Array Int) :
    (normalizeGuarded slots ids).Runs (normalize slots ids) := by
  rw [normalize, ← Array.foldlM_toList]
  refine Runs.bind (Runs.foldlM (fun state => state.2.size = slots) ?_ Array.size_replicate)
    fun _ _ => rfl
  intro state hstate id _
  exact ⟨runs_placeGuarded hstate id, fun _ hplace => (size_of_place hplace).trans hstate⟩

/-- Reads and checks the routing of a product. -/
def loadGuarded (sortedIds offsets : Tensor) (padded experts block slots : Nat) :
    Guarded Plan := do
  let ids ← readIndices "sorted_ids" sortedIds
  if ids.size ≠ padded then throw (.idCount ids.size padded)
  let bounds ← readIndices "expert_offsets" offsets
  checkOffsetsGuarded bounds padded experts block
  return { ids := ← normalizeGuarded slots ids, offsets := bounds.map Int.toNat }

/-- Loading a plan makes no access out of range, whatever its tensors are. -/
theorem runs_loadGuarded (sortedIds offsets : Tensor) (padded experts block slots : Nat) :
    (loadGuarded sortedIds offsets padded experts block slots).Runs
      (load sortedIds offsets padded experts block slots) := by
  refine Runs.bind (Runs.lift _) fun ids _ => Runs.ite (fun _ => rfl) fun _ => ?_
  refine Runs.bind (Runs.lift _) fun bounds _ => ?_
  refine Runs.bind (runs_checkOffsetsGuarded ..) fun _ _ => ?_
  exact Runs.bind (runs_normalizeGuarded ..) fun _ _ => rfl

end Plan

/-! ### Scales -/

/-- A table of the entries of a shape is a tensor of it. -/
theorem Tensor.ofArray?_ofFn (element : Element) (shape : List Nat) (f : Nat → element.Value) :
    ofArray? element shape (Array.ofFn fun i : Fin (volume shape) => f i) =
      some (ofFn element shape f) :=
  dif_pos Array.size_ofFn

namespace ScaleLayout

/-- Moves the scales of every run, or refuses a tensor that does not divide into runs. -/
def moveGuarded (scales : Tensor) (columns run : Nat) (place : Nat → Nat) : Guarded Tensor :=
  if scales.data.size % run ≠ 0 ∨ columns % run ≠ 0 then throw (.scaleChunks scales.shape run)
  else do
    let data ← access (tabulate (volume scales.shape) fun i => scales.data[inRun run place i]?)
    access (Tensor.ofArray? scales.element scales.shape data)

/-- Moving scales within runs makes no access out of range. -/
theorem runs_moveGuarded (scales : Tensor) (columns : Nat) {run : Nat} {place : Nat → Nat}
    (hplace : ∀ p < run, place p < run) :
    (moveGuarded scales columns run place).Runs (move scales columns run place) := by
  refine Runs.ite (fun _ => rfl) fun hruns => ?_
  have hsize : scales.data.size % run = 0 := by omega
  have hdata := Tensor.ofArray?_ofFn scales.element scales.shape fun i =>
    scales.get (inRun run place i)
  refine Runs.access (tabulate_eq_some (fun i => scales.get (inRun run place i)) ?_)
    (Runs.found hdata)
  intro i hi
  rw [← scales.size_data] at hi
  exact getElem?_eq_some_getD (inRun_lt hplace hsize hi) default

/-- Stored scales in the order of the columns. -/
def unpermuteGuarded (scales : Tensor) (rows columns : Nat) (groupSize : Int) : Guarded Tensor :=
  let order := ScaleOrder.ofGroupSize rows groupSize
  moveGuarded scales columns order.run order.target

end ScaleLayout

/-! ### Results -/

/-- A tensor of single-precision values rounded to the element type, if they fill the shape. -/
def Tensor.ofSinglesChecked (element : Element) (shape : List Nat) (values : Array Float32) :
    Option Tensor :=
  Tensor.ofArray? element shape (values.map element.ofSingle)

/-- Numbers of the size of a shape fill a tensor of it. -/
theorem Tensor.ofSinglesChecked_eq_some (element : Element) {shape : List Nat}
    {values : Array Float32} (hsize : values.size = volume shape) :
    ofSinglesChecked element shape values = some (ofSingles element shape values) := by
  have hdata : values.map element.ofSingle =
      Array.ofFn fun i : Fin (volume shape) => element.ofSingle (values.getD i 0) := by
    apply Array.ext
    · rw [Array.size_map, Array.size_ofFn, hsize]
    · intro i hi _
      have hi : i < values.size := by rwa [Array.size_map] at hi
      rw [Array.getElem_map, Array.getElem_ofFn, Array.getD_eq_getD_getElem?,
        Array.getElem?_eq_getElem hi, Option.getD_some]
  rw [ofSinglesChecked, hdata]
  exact ofArray?_ofFn element shape fun i => element.ofSingle (values.getD i 0)

namespace GroupedCall

/-- Checks a call and reads its operands. -/
def prepareGuarded (c : GroupedCall) (workspace : Workspace) : Guarded Operands := do
  let s := c.shape
  s.check
  c.checkActivations
  let type ← c.inferType
  let (groups, groupSize) ← c.readGroups type
  let plan ← Plan.loadGuarded c.sortedIds c.offsets s.padded s.experts s.block s.slots
  let weights ← c.readWeights
  if !workspace.fits s.columns s.rows s.block then
    throw (.workspaceTooSmall workspace.size s.columns s.rows s.block
      (Workspace.required s.columns s.rows s.block))
  let scales ← ScaleLayout.unpermuteGuarded c.scales s.rows s.columns groupSize
  return {
    activations := c.activations.singles
    words := c.packed.words
    scales := scales.singles
    weights := weights
    plan := plan
    type := type
    groups := groups }

/-- The checks of a call make no access out of range, whatever its tensors are. -/
theorem runs_prepareGuarded (c : GroupedCall) (w : Workspace) :
    (c.prepareGuarded w).Runs (c.prepare w) := by
  refine Runs.bind (Runs.lift _) fun _ _ => Runs.bind (Runs.lift _) fun _ _ => ?_
  refine Runs.bind (Runs.lift _) fun type _ => Runs.bind (Runs.lift _) fun groups _ => ?_
  refine Runs.bind (Plan.runs_loadGuarded ..) fun plan _ => ?_
  refine Runs.bind (Runs.lift _) fun weights _ => Runs.ite (fun _ => rfl) fun _ => ?_
  exact Runs.bind (ScaleLayout.runs_moveGuarded _ _ fun _ => ScaleOrder.target_lt _) fun _ _ => rfl

variable {c : GroupedCall} {w : Workspace} {o : Operands} {groupSize : Int} {scales : Tensor}

/-- The operands of an accepted call have the sizes that the engine reads. -/
theorem Accepted.fitting (h : c.Accepted w o groupSize scales) : Engine.Fitting c.shape o where
  tiled := h.sound.tiled
  group_lt := fun k hk => h.holdsGroups.group_lt hk
  size_activations := by
    rw [h.activations_eq, Tensor.size_singles, h.holdsActivations.shape_eq, volume_pair]
  size_words := by
    rw [h.words_eq, Tensor.size_words, h.holdsType.shape_eq,
      Experts.volume_packedShape h.sound.tiled]
  size_scales := by
    obtain ⟨_, _, rfl⟩ := (ScaleLayout.move_eq_ok_iff ..).mp h.unpermute_eq
    rw [h.scales_eq, Tensor.size_singles, ← Nat.mul_assoc, ← volume_triple,
      ← h.holdsGroups.shape_eq]
    rfl
  size_weights := by
    intro weights hweights
    cases hw : c.shape.weighted with
    | false => rw [h.holdsWeights.none_of_not_weighted hw] at hweights; cases hweights
    | true =>
      obtain ⟨t, _, hshape, ht⟩ := h.holdsWeights.some_of_weighted hw
      rw [hweights, Option.some.injEq] at ht
      rw [ht, Tensor.size_singles, hshape, volume_pair]
      rfl
  offsets_size := by rw [h.plan_eq, Array.size_map, h.routing.cuts.size_eq]
  offsets_step := by
    intro e he
    have hstep := h.routing.cuts.step e he
    rw [← h.routing.cuts.natCast_getD (Nat.le_of_lt he),
      ← h.routing.cuts.natCast_getD (e := e + 1) he] at hstep
    rw [h.plan_eq]
    exact Int.ofNat_le.mp hstep
  offsets_le := by
    intro e he
    have hlast := h.routing.cuts.mono he (Nat.le_refl _)
    rw [h.routing.cuts.last, ← h.routing.cuts.natCast_getD he] at hlast
    rw [h.plan_eq, Array.size_map, h.routing.ids_size]
    exact Int.ofNat_le.mp hlast

/-- Runs a call with every access checked. -/
def executeChecked (c : GroupedCall) (workspace : Workspace) :
    Option (Except Error (Array Float32) × Workspace) := do
  match ← (c.prepareGuarded workspace).run with
  | .error e => return (.error e, workspace)
  | .ok operands =>
    let state ← Engine.Checked.run c.shape operands workspace.buffer
    return (.ok state.slots, ⟨state.scratch⟩)

/-- No access of a call is out of range, whatever its tensors and its workspace are. -/
theorem executeChecked_eq_some (c : GroupedCall) (w : Workspace) :
    c.executeChecked w = some (c.execute w) := by
  have hprepare := runs_prepareGuarded c w
  rw [Guarded.Runs] at hprepare
  cases ho : c.prepare w with
  | error e =>
    rw [ho] at hprepare
    simp only [executeChecked, execute, hprepare, ho]
    rfl
  | ok o =>
    obtain ⟨groupSize, scales, h⟩ := (prepare_eq_ok_iff c w o).mp ho
    rw [ho] at hprepare
    simp only [executeChecked, execute, hprepare, ho, Option.bind_eq_bind, Option.bind_some,
      Engine.Checked.run_eq_some h.fitting h.room]
    rfl

/-- The slots of a call that is accepted fill their rows. -/
theorem size_of_execute {slots : Array Float32} (h : (c.execute w).1 = .ok slots) :
    slots.size = c.shape.slots * c.shape.columns := by
  cases ho : c.prepare w with
  | error e => simp only [execute, ho, reduceCtorEq] at h
  | ok o =>
    obtain ⟨groupSize, scales, ha⟩ := (prepare_eq_ok_iff c w o).mp ho
    rw [ha.execute_eq, Except.ok.injEq] at h
    rw [← h, Engine.run_eq_after]
    exact (Engine.sized_after ha.room c.shape.experts).slots_size

/-- The product of every slot, with every access checked. -/
def slotProductsChecked (c : GroupedCall) (workspace : Workspace) :
    Option (Except Error Tensor × Workspace) := do
  let s := c.shape
  match ← c.executeChecked workspace with
  | (.error e, after) => return (.error e, after)
  | (.ok slots, after) =>
    let rows ← Tensor.ofSinglesChecked c.activations.element [s.tokens, s.chosen, s.columns] slots
    return (.ok rows, after)

/-- The product of every token, with every access checked. -/
def productsChecked (c : GroupedCall) (workspace : Workspace) :
    Option (Except Error Tensor × Workspace) := do
  let s := c.shape
  match ← c.executeChecked workspace with
  | (.error e, after) => return (.error e, after)
  | (.ok slots, after) =>
    let sums ← Engine.Checked.reduce s slots
    let rows ← Tensor.ofSinglesChecked c.activations.element [s.tokens, s.columns] sums
    return (.ok rows, after)

/-- The products of the slots make no access out of range, whatever the call is. -/
theorem slotProductsChecked_eq_some (c : GroupedCall) (w : Workspace) :
    c.slotProductsChecked w = some (c.slotProducts w) := by
  cases hrun : c.execute w with
  | mk outcome after =>
    cases outcome with
    | error e =>
      simp only [slotProductsChecked, slotProducts, executeChecked_eq_some, hrun]
      rfl
    | ok slots =>
      have hsize : slots.size = volume [c.shape.tokens, c.shape.chosen, c.shape.columns] := by
        rw [volume_triple]
        exact size_of_execute (w := w) (by rw [hrun])
      simp only [slotProductsChecked, slotProducts, executeChecked_eq_some, hrun,
        Tensor.ofSinglesChecked_eq_some _ hsize, Option.bind_eq_bind, Option.bind_some]
      rfl

/-- The products of the tokens make no access out of range, whatever the call is. -/
theorem productsChecked_eq_some (c : GroupedCall) (w : Workspace) :
    c.productsChecked w = some (c.products w) := by
  cases hrun : c.execute w with
  | mk outcome after =>
    cases outcome with
    | error e =>
      simp only [productsChecked, products, executeChecked_eq_some, hrun]
      rfl
    | ok slots =>
      have hslots := size_of_execute (w := w) (by rw [hrun])
      have hsize : (Engine.reduce c.shape slots).size =
          volume [c.shape.tokens, c.shape.columns] := by
        rw [volume_pair, Engine.reduce, Array.size_ofFn]
      simp only [productsChecked, products, executeChecked_eq_some, hrun,
        Engine.Checked.reduce_eq_some hslots, Tensor.ofSinglesChecked_eq_some _ hsize,
        Option.bind_eq_bind, Option.bind_some]
      rfl

end GroupedCall

end RoutedExperts
