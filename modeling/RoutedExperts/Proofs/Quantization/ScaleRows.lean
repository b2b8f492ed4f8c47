import Mathlib.Logic.Equiv.Defs
import RoutedExperts.Proofs.Quantization.RoundTrip
import RoutedExperts.Proofs.Quantization.ScaleLayout

/-!
# Scales are moved inside their rows

The two maps of an order undo each other on every tensor (`ScaleLayout.Inverse.move_move`). A run
never reaches over the end of a row, so all rows are rearranged the same way
(`ScaleLayout.Inverse.keepsRows_move`), and each matrix of a stack as if it stood alone
(`ScaleLayout.Inverse.move_part`).
-/

namespace RoutedExperts

namespace Tensor

/-! ### Tensors and their elements -/

/-- A tensor is made from its own entries. -/
theorem ofFn_get (t : Tensor) : ofFn t.element t.shape t.get = t := by
  obtain ⟨element, shape, data, hsize⟩ := t
  have hdata : (Array.ofFn fun i : Fin (volume shape) => data.getD i default) = data := by
    apply Array.ext
    · rw [Array.size_ofFn, hsize]
    · intro i _ hi
      rw [Array.getElem_ofFn, ← Array.getElem_eq_getD]
  simp only [ofFn, get, hdata]

/-- Two reorderings are one by the places behind each other. -/
theorem reorder_reorder (t : Tensor) {f g : Nat → Nat}
    (hg : ∀ i < volume t.shape, g i < volume t.shape) :
    (t.reorder f).reorder g = t.reorder fun i => f (g i) :=
  ofFn_congr fun i hi => get_ofFn t.element (fun i => t.get (f i)) (hg i hi)

/-- A reordering that moves no entry changes nothing. -/
theorem reorder_of_forall_eq (t : Tensor) {f : Nat → Nat} (hf : ∀ i < volume t.shape, f i = i) :
    t.reorder f = t := by
  conv => rhs; rw [← t.ofFn_get]
  exact ofFn_congr fun i hi => congrArg t.get (hf i hi)

/-- The second tensor has the rows of the first, each with its values rearranged in the same way. -/
def KeepsRows (t moved : Tensor) (columns : Nat) : Prop :=
  ∃ place : Equiv.Perm (Fin columns), ∀ (r : Nat) (n : Fin columns),
    r * columns + n < volume t.shape →
      moved.HasEntry (r * columns + place n) (t.get (r * columns + n))

/-! ### Stacks -/

/-- Tensor number `e` of a stack of tensors of the given shape. -/
def part (t : Tensor) (shape : List Nat) (e : Nat) : Tensor :=
  ofFn t.element shape fun i => t.get (e * volume shape + i)

/-- The element at a position, or zero in a tensor of another element type. -/
def getAs (element : Element) (t : Tensor) (i : Nat) : element.Value :=
  if h : t.element = element then h ▸ t.get i else default

/-- Tensors of one element type and shape, stacked along a new first dimension. -/
def stack (element : Element) (shape : List Nat) (parts : List Tensor) : Tensor :=
  ofFn element (parts.length :: shape) fun i =>
    getAs element (parts.getD (i / volume shape) (zeros element shape)) (i % volume shape)

/-- Reading a tensor made from a function as its own element gives the function's values. -/
theorem getAs_ofFn (element : Element) {shape : List Nat} (f : Nat → element.Value) {i : Nat}
    (hi : i < volume shape) : getAs element (ofFn element shape f) i = f i :=
  (dif_pos rfl).trans (get_ofFn element f hi)

/-- A stack is the stack of its parts. -/
theorem stack_part {t : Tensor} {count : Nat} {shape : List Nat}
    (hshape : t.shape = count :: shape) :
    stack t.element shape ((List.range count).map (t.part shape)) = t := by
  conv => rhs; rw [← t.ofFn_get, hshape]
  simp only [stack, List.length_map, List.length_range]
  apply ofFn_congr
  intro i hi
  have hvolume : volume (count :: shape) = count * volume shape := rfl
  rw [hvolume] at hi
  obtain ⟨he, hj⟩ := row_lt_column_lt hi
  rw [List.getD_eq_getElem?_getD, List.getElem?_map, List.getElem?_range he, Option.map_some,
    Option.getD_some, part, getAs_ofFn _ _ hj, div_mul_add_mod]

end Tensor

/-! ### Moving scales -/

namespace ScaleLayout

/-- Rows of whole runs are whole runs. -/
theorem mul_mod_run {run width : Nat} (hwidth : width % run = 0) (count : Nat) :
    count * width % run = 0 := by
  rw [Nat.mul_mod, hwidth, Nat.mul_zero, Nat.zero_mod]

/-- Two maps of the places of a run that undo each other. -/
structure Inverse (run : Nat) (f g : Nat → Nat) : Prop where
  run_pos : 0 < run
  left_lt : ∀ p < run, f p < run
  right_lt : ∀ p < run, g p < run
  left_right : ∀ p < run, f (g p) = p
  right_left : ∀ p < run, g (f p) = p

namespace Inverse

variable {run : Nat} {f g : Nat → Nat} (h : Inverse run f g)

include h

theorem symm : Inverse run g f := ⟨h.run_pos, h.right_lt, h.left_lt, h.right_left, h.left_right⟩

/-- Inverse orders undo each other in every run. -/
theorem inRun_inRun (i : Nat) : inRun run f (inRun run g i) = i :=
  ScaleLayout.inRun_inRun h.run_pos h.right_lt h.left_right i

/-- The columns of a row, rearranged run by run. -/
def columnOrder {columns : Nat} (hcolumns : columns % run = 0) : Equiv.Perm (Fin columns) where
  toFun n := ⟨inRun run g n, inRun_lt h.right_lt hcolumns n.isLt⟩
  invFun n := ⟨inRun run f n, inRun_lt h.left_lt hcolumns n.isLt⟩
  left_inv n := Fin.ext (h.inRun_inRun n)
  right_inv n := Fin.ext (h.symm.inRun_inRun n)

variable {scales moved : Tensor} {columns : Nat} (hmove : move scales columns run f = .ok moved)

include hmove

/-- Maps that undo each other in a run undo each other on every tensor. -/
theorem move_move : move moved columns run g = .ok scales := by
  obtain ⟨hsize, hcolumns, rfl⟩ := (move_eq_ok_iff ..).mp hmove
  refine (move_eq_ok_iff ..).mpr ⟨hsize, hcolumns, ?_⟩
  rw [Tensor.reorder_reorder scales fun i hi => inRun_lt h.right_lt hsize hi]
  exact scales.reorder_of_forall_eq fun i _ => h.inRun_inRun i

/-- Moved scales stay in their rows. -/
theorem keepsRows_move : scales.KeepsRows moved columns := by
  obtain ⟨hsize, hcolumns, rfl⟩ := (move_eq_ok_iff ..).mp hmove
  refine ⟨h.columnOrder hcolumns, fun r n hn => ?_⟩
  have hplace : inRun run g (r * columns + n) = r * columns + inRun run g n :=
    inRun_add h.run_pos (mul_mod_run hcolumns r) g n
  have hinside : r * columns + inRun run g n < volume scales.shape := by
    rw [← hplace]
    exact inRun_lt h.right_lt hsize hn
  have hback : inRun run f (r * columns + inRun run g n) = r * columns + n := by
    rw [← hplace, h.inRun_inRun]
  have hentry := Tensor.hasEntry_ofFn scales.element (fun i => scales.get (inRun run f i)) hinside
  rw [hback] at hentry
  exact hentry

/-- The parts of a stack are moved as if they stood alone. -/
theorem move_part {count : Nat} {shape : List Nat} (hshape : scales.shape = count :: shape)
    (hpart : volume shape % run = 0) {e : Nat} (he : e < count) :
    move (scales.part shape e) columns run f = .ok (moved.part shape e) := by
  obtain ⟨_, hcolumns, rfl⟩ := (move_eq_ok_iff ..).mp hmove
  refine (move_eq_ok_iff ..).mpr ⟨hpart, hcolumns, Tensor.ofFn_congr fun i hi => ?_⟩
  have hplace : e * volume shape + i < volume scales.shape := by
    rw [hshape]
    exact rowMajor_lt he hi
  have halone : (scales.part shape e).get (inRun run f i) =
      scales.get (e * volume shape + inRun run f i) :=
    Tensor.get_ofFn scales.element _ (inRun_lt h.left_lt hpart hi)
  have hstacked : (scales.reorder (inRun run f)).get (e * volume shape + i) =
      scales.get (inRun run f (e * volume shape + i)) :=
    Tensor.get_ofFn scales.element (fun i => scales.get (inRun run f i)) hplace
  rw [inRun_add h.run_pos (mul_mod_run hpart e)] at hstacked
  exact halone.trans hstacked.symm

/-- A stack of matrices is moved one matrix after the other. -/
theorem exists_mapM_move {experts groups : Nat}
    (hshape : scales.shape = [experts, groups, columns]) :
    ∃ parts, (List.range experts).mapM (fun e =>
        move (scales.part [groups, columns] e) columns run f) = .ok parts ∧
      Tensor.stack scales.element [groups, columns] parts = moved := by
  obtain ⟨_, hcolumns, rfl⟩ := (move_eq_ok_iff ..).mp hmove
  have hpart : volume [groups, columns] % run = 0 := by
    rw [volume_pair]
    exact mul_mod_run hcolumns groups
  have hstack : (scales.reorder (inRun run f)).shape = [experts, groups, columns] := hshape
  refine ⟨_, (mapM_eq_ok_iff ..).mpr ?_, Tensor.stack_part hstack⟩
  rw [List.map_map]
  apply List.map_congr_left
  intro e he
  exact h.move_part hmove hshape hpart (List.mem_range.mp he)

end Inverse

end ScaleLayout

/-- The two maps of an order undo each other. -/
theorem ScaleOrder.inverse (order : ScaleOrder) :
    ScaleLayout.Inverse order.run order.source order.target where
  run_pos := order.run_pos
  left_lt _ hj := (inverse_of_rightInverse (fun _ hp => order.target_lt hp)
    (fun _ hp => order.source_target hp) hj).1
  right_lt _ hp := order.target_lt hp
  left_right _ hp := order.source_target hp
  right_left _ hj := (inverse_of_rightInverse (fun _ hp => order.target_lt hp)
    (fun _ hp => order.source_target hp) hj).2

namespace ScaleLayout

/-- Scales can be brought into the stored order exactly when they can be brought back, each undoes
the other, and both move scales inside their rows only, so that the scales of a stack of experts are
moved expert by expert. -/
theorem permute_unpermute_inverse (scales : Tensor) (rows columns : Nat) (groupSize : Int) :
    ((∃ t, permute scales rows columns groupSize = .ok t) ↔
      ∃ t, unpermute scales rows columns groupSize = .ok t) ∧
    (∀ t, permute scales rows columns groupSize = .ok t →
      t.shape = scales.shape ∧ unpermute t rows columns groupSize = .ok scales ∧
        scales.KeepsRows t columns) ∧
    (∀ t, unpermute scales rows columns groupSize = .ok t →
      t.shape = scales.shape ∧ permute t rows columns groupSize = .ok scales ∧
        scales.KeepsRows t columns) ∧
    ∀ experts groups t, scales.shape = [experts, groups, columns] →
      permute scales rows columns groupSize = .ok t →
      ∃ parts, (List.range experts).mapM (fun e =>
          permute (scales.part [groups, columns] e) rows columns groupSize) = .ok parts ∧
        Tensor.stack scales.element [groups, columns] parts = t := by
  have h := (ScaleOrder.ofGroupSize rows groupSize).inverse
  refine ⟨?_, ?_, ?_, ?_⟩
  · simp only [permute, unpermute, move_eq_ok_iff, exists_and_left, exists_eq']
  · intro t ht
    exact ⟨shape_move ht, h.move_move ht, h.keepsRows_move ht⟩
  · intro t ht
    exact ⟨shape_move ht, h.symm.move_move ht, h.symm.keepsRows_move ht⟩
  · intro experts groups t hshape ht
    exact h.exists_mapM_move ht hshape

/-- Scales of two experts with two groups, all different. -/
def sampleScales : Tensor := .ofFn .u32 [2, 2, 64] fun i => i.toUInt32

/-- The scale of column eight is stored at place one, and found again in column eight. -/
theorem permute_unpermute_inverse_sampleScales :
    ∃ t, permute sampleScales 128 64 64 = .ok t ∧ t.shape = [2, 2, 64] ∧ t.words.getD 1 0 = 8 ∧
      unpermute t 128 64 64 = .ok sampleScales ∧ sampleScales.KeepsRows t 64 ∧
      ∃ parts, (List.range 2).mapM (fun e =>
          permute (sampleScales.part [2, 64] e) 128 64 64) = .ok parts ∧
        Tensor.stack .u32 [2, 64] parts = t := by
  have hpermute : permute sampleScales 128 64 64 =
      .ok (sampleScales.reorder (inRun 64 ScaleOrder.grouped.source)) :=
    (move_eq_ok_iff ..).mpr ⟨rfl, rfl, rfl⟩
  obtain ⟨_, hmoved, _, hstack⟩ := permute_unpermute_inverse sampleScales 128 64 64
  obtain ⟨hshape, hback, hrows⟩ := hmoved _ hpermute
  exact ⟨_, hpermute, hshape, by decide +kernel, hback, hrows, hstack 2 2 _ rfl hpermute⟩

end ScaleLayout

end RoutedExperts
