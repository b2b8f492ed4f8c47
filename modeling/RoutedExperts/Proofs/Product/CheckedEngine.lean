import RoutedExperts.Proofs.Product.PerSlot

/-!
# The engine stays in range

`Engine.Checked` is the engine with every access to an array checked: a read or a write outside of
an array, or outside of the part of the scratch buffer that it is meant for, and a slice that does
not lie in its array end the computation with `none`. Over operands of the sizes that `Fitting`
names, the checked engine runs to its end and has the result of the engine (`Checked.run_eq_some`).
-/

namespace RoutedExperts

/-! ### Checked accesses -/

/-- Checked steps that all succeed make up a fold, if each of them keeps what the next one needs. -/
theorem foldlM_eq_some {α β : Type} {step : β → α → Option β} {total : β → α → β} (Inv : β → Prop)
    {l : List α} (hstep : ∀ b, Inv b → ∀ a ∈ l, step b a = some (total b a) ∧ Inv (total b a))
    {b : β} (hb : Inv b) : l.foldlM step b = some (l.foldl total b) := by
  induction l generalizing b with
  | nil => rfl
  | cons a l ih =>
    obtain ⟨ha, hnext⟩ := hstep b hb a List.mem_cons_self
    rw [List.foldlM_cons, ha, List.foldl_cons]
    exact ih (fun b hb a' ha' => hstep b hb a' (List.mem_cons_of_mem a ha')) hnext

/-- The array of the first `count` values of a function, if all of them are defined. -/
def tabulate {α : Type} (count : Nat) (value : Nat → Option α) : Option (Array α) :=
  ((List.range count).mapM value).map List.toArray

/-- A table of accesses in range has all their values. -/
theorem tabulate_eq_some {α : Type} {count : Nat} {value : Nat → Option α} (total : Nat → α)
    (h : ∀ i < count, value i = some (total i)) :
    tabulate count value = some (Array.ofFn fun i : Fin count => total i) := by
  have hall : ∀ l : List Nat, (∀ i ∈ l, i < count) → l.mapM value = some (l.map total) := by
    intro l hl
    induction l with
    | nil => rfl
    | cons i l ih =>
      rw [List.mapM_cons, h i (hl i List.mem_cons_self),
        ih fun j hj => hl j (List.mem_cons_of_mem i hj)]
      rfl
  rw [tabulate, hall _ fun i => List.mem_range.mp, Option.map_some, Option.some.injEq]
  apply Array.ext
  · rw [List.size_toArray, List.length_map, List.length_range, Array.size_ofFn]
  · intro i _ _
    rw [List.getElem_toArray, List.getElem_map, List.getElem_range, Array.getElem_ofFn]

/-- The elements from `start` up to `stop`, if there are such elements. -/
def slice {α : Type} (xs : Array α) (start stop : Nat) : Option (Array α) :=
  if start ≤ stop ∧ stop ≤ xs.size then some (xs.extract start stop) else none

/-- A slice in range is the part of the array. -/
theorem slice_eq_some {α : Type} {xs : Array α} {start stop : Nat} (horder : start ≤ stop)
    (hstop : stop ≤ xs.size) : slice xs start stop = some (xs.extract start stop) :=
  if_pos ⟨horder, hstop⟩

/-- Of an array in equal shares, every share is in range. -/
theorem slice_share {α : Type} {xs : Array α} {count size e : Nat} (hsize : xs.size = count * size)
    (he : e < count) : slice xs (e * size) ((e + 1) * size) =
      some (xs.extract (e * size) ((e + 1) * size)) := by
  have hend : (e + 1) * size ≤ count * size := Nat.mul_le_mul_right size he
  exact slice_eq_some (Nat.mul_le_mul_right size (Nat.le_succ e)) (by omega)

/-- A part of a buffer. -/
structure Region where
  start : Nat
  size : Nat

namespace Region

/-- The element at a place of the region. -/
def read (r : Region) (buffer : Array Float32) (i : Nat) : Option Float32 :=
  if i < r.size then buffer[r.start + i]? else none

/-- Replaces the element at a place of the region. -/
def set (r : Region) (buffer : Array Float32) (i : Nat) (value : Float32) :
    Option (Array Float32) :=
  if i < r.size ∧ r.start + i < buffer.size then some (buffer.setIfInBounds (r.start + i) value)
  else none

/-- Replaces `count` elements of the region from `start` on. -/
def write (r : Region) (buffer : Array Float32) (start count : Nat)
    (value : Nat → Option Float32) : Option (Array Float32) :=
  (List.range count).foldlM (fun b i => do r.set b (start + i) (← value i)) buffer

variable {r : Region} {buffer : Array Float32}

/-- A read inside a region with room in the buffer is in range. -/
theorem read_eq_some (hroom : r.start + r.size ≤ buffer.size) {i : Nat} (hi : i < r.size) :
    r.read buffer i = some (buffer.getD (r.start + i) 0) := by
  rw [read, if_pos hi]
  exact getElem?_eq_some_getD (by omega) 0

/-- A write inside a region with room in the buffer is in range, if its values are. -/
theorem write_eq_some (hroom : r.start + r.size ≤ buffer.size) {start count : Nat}
    (hrange : start + count ≤ r.size) {value : Nat → Option Float32} (total : Nat → Float32)
    (hvalue : ∀ i < count, value i = some (total i)) :
    r.write buffer start count value =
      some (Engine.write buffer (r.start + start) count total) := by
  rw [write, Engine.write, fold_eq_foldl_range]
  apply foldlM_eq_some (fun b => b.size = buffer.size) _ rfl
  intro b hb i hi
  have hi : i < count := List.mem_range.mp hi
  have hplace : start + i < r.size ∧ r.start + (start + i) < b.size := by omega
  refine ⟨?_, by rw [Array.size_setIfInBounds, hb]⟩
  rw [hvalue i hi, Option.bind_eq_bind, Option.bind_some, set, if_pos hplace, Nat.add_assoc]

end Region

/-! ### The checked engine -/

namespace Engine

namespace Checked

/-- The part of the scratch buffer for an expert's weights. -/
def weightRegion (s : ProductShape) : Region := ⟨0, s.rows * s.columns⟩

/-- The part of the scratch buffer for the gathered rows of activations. -/
def rowRegion (s : ProductShape) : Region := ⟨s.rowStart, s.block * s.rows⟩

/-- The part of the scratch buffer for the rows of products. -/
def productRegion (s : ProductShape) : Region := ⟨s.productStart, s.block * s.columns⟩

/-- The rows of the slots. -/
def slotRegion (s : ProductShape) : Region := ⟨0, s.slots * s.columns⟩

/-- The weight at a row-major index, read from the words and the scales of one expert. -/
def tileEntry (s : ProductShape) (o : Operands) (words : Array UInt32) (scales : Array Float32)
    (i : Nat) : Option Float32 := do
  let p := WeightLayout.position o.type.bits s.columns i
  let word ← words[p / o.type.packFactor]?
  let scale ← scales[i / s.columns / (s.rows / o.groups) * s.columns + i % s.columns]?
  return dequantize o.type
    (WeightLayout.field o.type.bits word.toNat (p % o.type.packFactor)).toUInt32 scale

/-- Writes an expert's weights to the workspace. -/
def stageTile (s : ProductShape) (o : Operands) (expert : Nat) (scratch : Array Float32) :
    Option (Array Float32) := do
  let size := WeightLayout.packedSize s.rows s.columns o.type
  let words ← slice o.words (expert * size) ((expert + 1) * size)
  let count := o.groups * s.columns
  let scales ← slice o.scales (expert * count) ((expert + 1) * count)
  (weightRegion s).write scratch 0 (s.rows * s.columns) (tileEntry s o words scales)

/-- Gathers the activations of the given slots. -/
def gather (s : ProductShape) (o : Operands) (ids : Array Nat) (scratch : Array Float32) :
    Option (Array Float32) :=
  (rowRegion s).write scratch 0 (ids.size * s.rows) fun i => do
    let slot ← ids[i / s.rows]?
    o.activations[s.activationRow slot * s.rows + i % s.rows]?

/-- The product of a gathered row and a column of the weights. -/
def dot (s : ProductShape) (scratch : Array Float32) (row column : Nat) : Option Float32 :=
  (List.range s.rows).foldlM (fun sum k => do
    let activation ← (rowRegion s).read scratch (row * s.rows + k)
    let weight ← (weightRegion s).read scratch (k * s.columns + column)
    return sum + activation * weight) 0

/-- Multiplies the gathered rows into the weights. -/
def multiply (s : ProductShape) (count : Nat) (scratch : Array Float32) : Option (Array Float32) :=
  (productRegion s).write scratch 0 (count * s.columns) fun i =>
    dot s scratch (i / s.columns) (i % s.columns)

/-- The factor of a slot's product. -/
def slotWeight (o : Operands) (slot : Nat) : Option Float32 :=
  o.weights.elim (some 1) fun weights => weights[slot]?

/-- Writes the products of the given slots to their rows. -/
def scatter (s : ProductShape) (o : Operands) (ids : Array Nat) (scratch slots : Array Float32) :
    Option (Array Float32) :=
  ids.toList.zipIdx.foldlM (fun out p => do
    let factor ← slotWeight o p.1
    (slotRegion s).write out (p.1 * s.columns) s.columns fun n => do
      return (← (productRegion s).read scratch (p.2 * s.columns + n)) * factor) slots

/-- Works on one block of places. -/
def runBlock (s : ProductShape) (o : Operands) (state : State) (places : Array Nat) :
    Option State := do
  let ids := places.filter (· < s.slots)
  let gathered ← gather s o ids state.scratch
  let scratch ← multiply s ids.size gathered
  return { scratch := scratch, slots := ← scatter s o ids scratch state.slots }

/-- The places of one expert. -/
def segment (plan : Plan) (expert : Nat) : Option (Array Nat) := do
  slice plan.ids (← plan.offsets[expert]?) (← plan.offsets[expert + 1]?)

/-- Works on the places of one expert. -/
def runExpert (s : ProductShape) (o : Operands) (state : State) (expert : Nat) : Option State := do
  let places ← segment o.plan expert
  if places.any (· < s.slots) then
    let scratch ← stageTile s o expert state.scratch
    (blocks s.block places).foldlM (runBlock s o) { state with scratch := scratch }
  else return state

/-- Runs a grouped product. -/
def run (s : ProductShape) (o : Operands) (scratch : Array Float32) : Option State :=
  (List.range s.experts).foldlM (runExpert s o)
    { scratch := scratch, slots := Array.replicate (s.slots * s.columns) 0 }

/-- The sums of each token's slots. -/
def reduce (s : ProductShape) (slots : Array Float32) : Option (Array Float32) :=
  tabulate (s.tokens * s.columns) fun i =>
    (List.range s.chosen).foldlM (fun sum j => do
      return sum + (← slots[(i / s.columns * s.chosen + j) * s.columns + i % s.columns]?)) 0

end Checked

/-! ### The checked engine runs to its end -/

/-- Operands of the sizes that a product reads. -/
structure Fitting (s : ProductShape) (o : Operands) : Prop where
  tiled : WeightLayout.Tiled s.rows s.columns
  group_lt : ∀ k < s.rows, k / (s.rows / o.groups) < o.groups
  size_activations : o.activations.size = s.activationRows * s.rows
  size_words : o.words.size = s.experts * WeightLayout.packedSize s.rows s.columns o.type
  size_scales : o.scales.size = s.experts * (o.groups * s.columns)
  size_weights : ∀ weights, o.weights = some weights → weights.size = s.slots
  offsets_size : o.plan.offsets.size = s.experts + 1
  offsets_step : ∀ e < s.experts, o.plan.offsets.getD e 0 ≤ o.plan.offsets.getD (e + 1) 0
  offsets_le : ∀ e ≤ s.experts, o.plan.offsets.getD e 0 ≤ o.plan.ids.size

variable {s : ProductShape} {o : Operands}

/-- A block keeps the sizes of the state. -/
theorem Sized.runBlock {state : State} (h : Sized s state) (places : Array Nat) :
    Sized s (runBlock s o state places) where
  room := by simpa only [size_scratch_runBlock] using h.room
  slots_size := by simpa only [Engine.runBlock, size_scatter] using h.slots_size

namespace Checked

/-- The room of the three parts of a scratch buffer. -/
theorem regions_le {scratch : Array Float32}
    (hroom : Workspace.required s.columns s.rows s.block ≤ scratch.size) :
    (weightRegion s).start + (weightRegion s).size ≤ scratch.size ∧
      (rowRegion s).start + (rowRegion s).size ≤ scratch.size ∧
      (productRegion s).start + (productRegion s).size ≤ scratch.size := by
  have hend := productStart_add s
  simp only [weightRegion, rowRegion, productRegion, ProductShape.rowStart,
    ProductShape.productStart] at hend ⊢
  omega

/-- The segment of every expert is in range. -/
theorem segment_eq_some (h : Fitting s o) {expert : Nat} (he : expert < s.experts) :
    segment o.plan expert = some (o.plan.segment expert) := by
  have hsize := h.offsets_size
  have hstart : expert < o.plan.offsets.size := by omega
  have hend : expert + 1 < o.plan.offsets.size := by omega
  rw [segment, getElem?_eq_some_getD hstart 0, getElem?_eq_some_getD hend 0]
  exact slice_eq_some (h.offsets_step expert he) (h.offsets_le (expert + 1) he)

/-- The word and the scale of every weight are among the words and the scales of its expert. -/
theorem tileEntry_eq_some (h : Fitting s o) {expert i : Nat} (he : expert < s.experts)
    (hi : i < s.rows * s.columns) :
    tileEntry s o (o.words.extract (expert * WeightLayout.packedSize s.rows s.columns o.type)
        ((expert + 1) * WeightLayout.packedSize s.rows s.columns o.type))
      (o.scales.extract (expert * (o.groups * s.columns)) ((expert + 1) * (o.groups * s.columns)))
      i = some (Engine.tileEntry s o expert (expertValues s o expert) i) := by
  obtain ⟨hrow, hcolumn⟩ := row_lt_column_lt hi
  have hposition : WeightLayout.position o.type.bits s.columns i / o.type.packFactor <
      WeightLayout.packedSize s.rows s.columns o.type := by
    apply Nat.div_lt_of_lt_mul
    rw [Nat.mul_comm, WeightLayout.packedSize_mul_packFactor h.tiled]
    exact WeightLayout.position_lt o.type.bits h.tiled hi
  have hword := getElem?_eq_some_getD
    (hposition.trans_eq (size_share h.size_words he).symm) (0 : UInt32)
  have hscale := getElem?_share h.size_scales he (rowMajor_lt (h.group_lt _ hrow) hcolumn) 0
  have hplace : expert * (o.groups * s.columns) +
      (i / s.columns / (s.rows / o.groups) * s.columns + i % s.columns) =
        (expert * o.groups + i / s.columns / (s.rows / o.groups)) * s.columns + i % s.columns := by
    rw [Nat.add_mul, Nat.mul_assoc, Nat.add_assoc]
  have hvalue : (expertValues s o expert).getD i 0 = (WeightLayout.field o.type.bits
      ((o.words.extract (expert * WeightLayout.packedSize s.rows s.columns o.type)
        ((expert + 1) * WeightLayout.packedSize s.rows s.columns o.type)).getD
          (WeightLayout.position o.type.bits s.columns i / o.type.packFactor) 0).toNat
      (WeightLayout.position o.type.bits s.columns i % o.type.packFactor)).toUInt32 := by
    rw [expertValues, WeightLayout.unpackWords, Array.getD_eq_getD_getElem?, Array.getElem?_ofFn,
      dif_pos hi, Option.getD_some]
  rw [tileEntry, hword, hscale, hplace, Engine.tileEntry, hvalue]
  rfl

/-- Staging the weights of an expert makes no access out of range. -/
theorem stageTile_eq_some (h : Fitting s o) {expert : Nat} (he : expert < s.experts)
    {scratch : Array Float32}
    (hroom : Workspace.required s.columns s.rows s.block ≤ scratch.size) :
    stageTile s o expert scratch = some (Engine.stageTile s o expert scratch) := by
  simp only [stageTile, slice_share h.size_words he, slice_share h.size_scales he,
    Option.bind_eq_bind, Option.bind_some]
  exact Region.write_eq_some (regions_le hroom).1 (Nat.le_of_eq (Nat.zero_add _)) _
    fun i hi => tileEntry_eq_some h he hi

/-- Gathering the rows of a block makes no access out of range. -/
theorem gather_eq_some (h : Fitting s o) {ids : Array Nat} (hids : ids.size ≤ s.block)
    (hslots : ∀ slot ∈ ids, slot < s.slots) {scratch : Array Float32}
    (hroom : Workspace.required s.columns s.rows s.block ≤ scratch.size) :
    gather s o ids scratch = some (Engine.gather s o ids scratch) := by
  have hrange : 0 + ids.size * s.rows ≤ s.block * s.rows := by
    rw [Nat.zero_add]
    exact Nat.mul_le_mul_right s.rows hids
  refine Region.write_eq_some (regions_le hroom).2.1 hrange _ fun i hi => ?_
  obtain ⟨hrow, hk⟩ := row_lt_column_lt hi
  have hslot : ids.getD (i / s.rows) 0 < s.slots := by
    apply hslots
    rw [← Array.getElem_eq_getD (h := hrow)]
    exact Array.getElem_mem hrow
  have hplace : s.activationRow (ids.getD (i / s.rows) 0) * s.rows + i % s.rows <
      o.activations.size := by
    rw [h.size_activations]
    exact rowMajor_lt (ProductShape.activationRow_lt hslot) hk
  rw [getElem?_eq_some_getD hrow 0]
  exact getElem?_eq_some_getD hplace 0

/-- The sum for a row and a column makes no access out of range. -/
theorem dot_eq_some {scratch : Array Float32}
    (hroom : Workspace.required s.columns s.rows s.block ≤ scratch.size) {row column : Nat}
    (hrow : row < s.block) (hcolumn : column < s.columns) :
    dot s scratch row column = some (Engine.dot s scratch row column) := by
  rw [dot, Engine.dot, fold_eq_foldl_range]
  apply foldlM_eq_some (fun _ => True) _ trivial
  intro sum _ k hk
  have hk : k < s.rows := List.mem_range.mp hk
  refine ⟨?_, trivial⟩
  rw [Region.read_eq_some (regions_le hroom).2.1 (rowMajor_lt hrow hk),
    Region.read_eq_some (regions_le hroom).1 (rowMajor_lt hk hcolumn)]
  simp only [rowRegion, weightRegion, Nat.zero_add, Nat.add_assoc]
  rfl

/-- Multiplying the rows of a block makes no access out of range. -/
theorem multiply_eq_some {scratch : Array Float32}
    (hroom : Workspace.required s.columns s.rows s.block ≤ scratch.size) {count : Nat}
    (hcount : count ≤ s.block) :
    multiply s count scratch = some (Engine.multiply s count scratch) := by
  have hrange : 0 + count * s.columns ≤ s.block * s.columns := by
    rw [Nat.zero_add]
    exact Nat.mul_le_mul_right s.columns hcount
  refine Region.write_eq_some (regions_le hroom).2.2 hrange _ fun i hi => ?_
  obtain ⟨hrow, hcolumn⟩ := row_lt_column_lt hi
  exact dot_eq_some hroom (hrow.trans_le hcount) hcolumn

/-- The routing weight of every slot is in range. -/
theorem slotWeight_eq_some (h : Fitting s o) {slot : Nat} (hslot : slot < s.slots) :
    slotWeight o slot = some (Engine.slotWeight o slot) := by
  cases hw : o.weights with
  | none => simp only [slotWeight, Engine.slotWeight, hw, Option.elim_none]
  | some weights =>
    have hplace : slot < weights.size := by rwa [h.size_weights weights hw]
    simp only [slotWeight, Engine.slotWeight, hw, Option.elim_some]
    exact getElem?_eq_some_getD hplace 0

/-- Scattering the products of a block makes no access out of range. -/
theorem scatter_eq_some (h : Fitting s o) {ids : Array Nat} (hids : ids.size ≤ s.block)
    (hslots : ∀ slot ∈ ids, slot < s.slots) {scratch slots : Array Float32}
    (hroom : Workspace.required s.columns s.rows s.block ≤ scratch.size)
    (hsize : slots.size = s.slots * s.columns) :
    scatter s o ids scratch slots = some (Engine.scatter s o ids scratch slots) := by
  rw [scatter, Engine.scatter, foldl_zipIdx]
  apply foldlM_eq_some (fun out => out.size = s.slots * s.columns) _ hsize
  rintro out hout ⟨slot, row⟩ hp
  obtain ⟨hrow, hslot⟩ := List.getElem?_eq_some_iff.mp (List.mk_mem_zipIdx_iff_getElem?.mp hp)
  have hrow : row < ids.size := by simpa only [Array.length_toList] using hrow
  have hslot : slot < s.slots := by
    apply hslots
    rw [← hslot, Array.getElem_toList]
    exact Array.getElem_mem hrow
  have hend : (slot + 1) * s.columns ≤ s.slots * s.columns := Nat.mul_le_mul_right s.columns hslot
  rw [Nat.succ_mul] at hend
  have hroom' : (slotRegion s).start + (slotRegion s).size ≤ out.size := by
    rw [hout]
    exact Nat.le_of_eq (Nat.zero_add _)
  refine ⟨?_, by rw [size_write, hout]⟩
  rw [slotWeight_eq_some h hslot, Option.bind_eq_bind, Option.bind_some,
    Region.write_eq_some hroom' hend fun n =>
      scratch.getD (s.productStart + row * s.columns + n) 0 * Engine.slotWeight o slot]
  · simp only [slotRegion, Nat.zero_add]
  · intro n hn
    rw [Region.read_eq_some (regions_le hroom).2.2 (rowMajor_lt (hrow.trans_le hids) hn)]
    simp only [productRegion, Nat.add_assoc]
    rfl

/-- A block of any places makes no access out of range. -/
theorem runBlock_eq_some (h : Fitting s o) {state : State} (hstate : Sized s state)
    {places : Array Nat} (hplaces : places.size ≤ s.block) :
    runBlock s o state places = some (Engine.runBlock s o state places) := by
  have hids : (places.filter (· < s.slots)).size ≤ s.block :=
    (Array.size_filter_le ..).trans hplaces
  have hslots : ∀ slot ∈ places.filter (· < s.slots), slot < s.slots := by
    intro slot hslot
    exact of_decide_eq_true (Array.mem_filter.mp hslot).2
  have hgathered : Workspace.required s.columns s.rows s.block ≤
      (Engine.gather s o (places.filter (· < s.slots)) state.scratch).size := by
    simpa only [Engine.gather, size_write] using hstate.room
  have hmultiplied : Workspace.required s.columns s.rows s.block ≤
      (Engine.multiply s (places.filter (· < s.slots)).size
        (Engine.gather s o (places.filter (· < s.slots)) state.scratch)).size := by
    simpa only [Engine.multiply, size_write] using hgathered
  simp only [runBlock, gather_eq_some h hids hslots hstate.room, multiply_eq_some hgathered hids,
    scatter_eq_some h hids hslots hmultiplied hstate.slots_size, Option.bind_eq_bind,
    Option.bind_some]
  rfl

/-- The blocks of every expert make no access out of range. -/
theorem runExpert_eq_some (h : Fitting s o) {state : State} (hstate : Sized s state)
    {expert : Nat} (he : expert < s.experts) :
    runExpert s o state expert = some (Engine.runExpert s o state expert) := by
  simp only [runExpert, Engine.runExpert, segment_eq_some h he, stageTile_eq_some h he hstate.room,
    Option.bind_eq_bind, Option.bind_some]
  by_cases hreal : (o.plan.segment expert).any (· < s.slots) = true
  · rw [if_pos hreal, if_pos hreal]
    apply foldlM_eq_some (Sized s) _ (hstate.stageTile expert).toSized
    exact fun state hstate places hplaces =>
      ⟨runBlock_eq_some h hstate (size_le_of_mem_blocks hplaces), hstate.runBlock places⟩
  · rw [if_neg hreal, if_neg hreal]
    rfl

/-- The engine never leaves the arrays that it is given, nor the parts of its scratch buffer. -/
theorem run_eq_some (h : Fitting s o) {scratch : Array Float32}
    (hroom : Workspace.required s.columns s.rows s.block ≤ scratch.size) :
    run s o scratch = some (Engine.run s o scratch) := by
  apply foldlM_eq_some (Sized s) _ ⟨hroom, Array.size_replicate⟩
  intro state hstate expert he
  exact ⟨runExpert_eq_some h hstate (List.mem_range.mp he), hstate.runExpert expert⟩

/-- Summing the slots of the tokens makes no access out of range. -/
theorem reduce_eq_some {slots : Array Float32} (hsize : slots.size = s.slots * s.columns) :
    reduce s slots = some (Engine.reduce s slots) := by
  refine tabulate_eq_some (fun i => Nat.fold s.chosen (fun j _ sum =>
    sum + slots.getD ((i / s.columns * s.chosen + j) * s.columns + i % s.columns) 0) 0) ?_
  intro i hi
  obtain ⟨htoken, hcolumn⟩ := row_lt_column_lt hi
  rw [fold_eq_foldl_range]
  apply foldlM_eq_some (fun _ => True) _ trivial
  intro sum _ j hj
  have hplace : (i / s.columns * s.chosen + j) * s.columns + i % s.columns < slots.size := by
    rw [hsize]
    exact rowMajor_lt (rowMajor_lt htoken (List.mem_range.mp hj)) hcolumn
  rw [getElem?_eq_some_getD hplace 0]
  exact ⟨rfl, trivial⟩

end Checked

end Engine

end RoutedExperts
