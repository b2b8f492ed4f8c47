import RoutedExperts.Proofs.Checks
import RoutedExperts.Proofs.Index
import RoutedExperts.Proofs.Tensor.Entries
import RoutedExperts.Quantization.ScaleLayout

/-!
# The stored order of scales is undone

The two maps of an order are inverse to each other inside a run (`ScaleOrder.source_target`), so
they are inverse on every tensor that divides into runs (`ScaleLayout.inRun_inRun`). Scales in the
order of the columns are found at their stored places (`ScaleLayout.getD_unpermute`), which never
leave the row of a group (`ScaleLayout.inRun_add`).
-/

namespace RoutedExperts

namespace ScaleOrder

theorem run_pos (order : ScaleOrder) : 0 < order.run := by
  cases order <;> decide

/-- Runs of scales fill a granule of 64 columns. -/
theorem run_dvd (order : ScaleOrder) : order.run ∣ 64 := by
  cases order <;> decide

/-- A scale stays in its run. -/
theorem target_lt (order : ScaleOrder) {p : Nat} (hp : p < order.run) :
    order.target p < order.run := by
  cases order <;> simp only [run, target] at hp ⊢ <;> omega

/-- The scale of a place is found where it was stored. -/
theorem source_target (order : ScaleOrder) {p : Nat} (hp : p < order.run) :
    order.source (order.target p) = p := by
  have hgrouped : ∀ p < 64, grouped.source (grouped.target p) = p := by decide
  have hcolumn : ∀ p < 32, perColumn.source (perColumn.target p) = p := by decide
  cases order with
  | grouped => exact hgrouped p hp
  | perColumn => exact hcolumn p hp

end ScaleOrder

namespace ScaleLayout

/-- Moving within runs keeps places in range where the runs are whole. -/
theorem inRun_lt {run i size : Nat} {place : Nat → Nat} (hplace : ∀ p < run, place p < run)
    (hsize : size % run = 0) (hi : i < size) : inRun run place i < size := by
  have hpos : 0 < run := by
    apply Nat.pos_of_ne_zero
    rintro rfl
    rw [Nat.mod_zero] at hsize
    omega
  have hruns : size / run * run = size := Nat.div_mul_cancel (Nat.dvd_of_mod_eq_zero hsize)
  have hrun : i / run < size / run := by
    apply Nat.div_lt_of_lt_mul
    rwa [Nat.mul_comm, hruns]
  have hlt := rowMajor_lt hrun (hplace _ (Nat.mod_lt i hpos))
  rwa [hruns] at hlt

/-- Scales can be moved exactly if they and their columns are whole runs. -/
theorem move_eq_ok_iff (scales : Tensor) (columns run : Nat) (place : Nat → Nat) (t : Tensor) :
    move scales columns run place = .ok t ↔
      volume scales.shape % run = 0 ∧ columns % run = 0 ∧
        scales.reorder (inRun run place) = t := by
  simp only [move, refuse_eq_ok_iff, scales.size_data, ne_eq, not_or, not_not, Except.ok.injEq,
    and_assoc]

/-- The scales of whole runs of columns can be moved in either order. -/
theorem exists_move {scales : Tensor} {experts groups columns : Nat}
    (hshape : scales.shape = [experts, groups, columns]) (hcolumns : columns % 64 = 0)
    (order : ScaleOrder) (place : Nat → Nat) :
    ∃ t, move scales columns order.run place = .ok t := by
  have hrow : order.run ∣ columns :=
    Nat.dvd_trans order.run_dvd (Nat.dvd_of_mod_eq_zero hcolumns)
  have hvolume : order.run ∣ volume scales.shape := by
    rw [hshape, volume_triple]
    exact Nat.dvd_mul_left_of_dvd hrow _
  exact ⟨_, (move_eq_ok_iff ..).mpr
    ⟨Nat.mod_eq_zero_of_dvd hvolume, Nat.mod_eq_zero_of_dvd hrow, rfl⟩⟩

/-- Moving within runs and back gives the place. -/
theorem inRun_inRun {run : Nat} (hpos : 0 < run) {f g : Nat → Nat} (hg : ∀ p < run, g p < run)
    (hfg : ∀ p < run, f (g p) = p) (i : Nat) : inRun run f (inRun run g i) = i := by
  have hp := Nat.mod_lt i hpos
  simp only [inRun, rowMajor_div _ (hg _ hp), rowMajor_mod _ (hg _ hp), hfg _ hp, div_mul_add_mod]

/-- A run never reaches over a whole number of runs. -/
theorem inRun_add {run start : Nat} (hpos : 0 < run) (hstart : start % run = 0)
    (place : Nat → Nat) (i : Nat) : inRun run place (start + i) = start + inRun run place i := by
  have hruns : start / run * run = start := Nat.div_mul_cancel (Nat.dvd_of_mod_eq_zero hstart)
  have hmod : (start + i) % run = i % run := by
    rw [Nat.add_mod, hstart, Nat.zero_add, Nat.mod_mod]
  have hdiv : (start + i) / run = start / run + i / run := by
    conv => lhs; lhs; rw [← hruns, Nat.add_comm]
    rw [Nat.add_mul_div_right _ _ hpos, Nat.add_comm]
  rw [inRun, inRun, hmod, hdiv, Nat.add_mul, hruns, Nat.add_assoc]

/-- Moving keeps the shape. -/
theorem shape_move {scales t : Tensor} {columns run : Nat} {place : Nat → Nat}
    (h : move scales columns run place = .ok t) : t.shape = scales.shape := by
  obtain ⟨_, _, rfl⟩ := (move_eq_ok_iff ..).mp h
  rfl

/-- Storing scales keeps their shape. -/
theorem shape_permute {scales t : Tensor} {rows columns : Nat} {groupSize : Int}
    (h : permute scales rows columns groupSize = .ok t) : t.shape = scales.shape :=
  shape_move h

/-- The stored place of a scale is in range. -/
theorem target_inRun_lt {order : ScaleOrder} {size i : Nat} (hsize : size % order.run = 0)
    (hi : i < size) : inRun order.run order.target i < size :=
  inRun_lt (fun _ hp => order.target_lt hp) hsize hi

/-- The stored place of a scale is one of the stored tensor. -/
theorem stored_lt_volume {scales t : Tensor} {rows columns : Nat} {groupSize : Int}
    (h : permute scales rows columns groupSize = .ok t) {i : Nat}
    (hi : i < volume scales.shape) : inRun (ScaleOrder.ofGroupSize rows groupSize).run
      (ScaleOrder.ofGroupSize rows groupSize).target i < volume t.shape := by
  obtain ⟨hsize, _, rfl⟩ := (move_eq_ok_iff ..).mp h
  exact target_inRun_lt hsize hi

/-- Scales that are brought into the stored order are found at the places they are stored at. -/
theorem getD_permute {scales t : Tensor} {rows columns : Nat} {groupSize : Int}
    (h : permute scales rows columns groupSize = .ok t) {i : Nat}
    (hi : i < volume scales.shape) :
    t.singles.getD (inRun (ScaleOrder.ofGroupSize rows groupSize).run
      (ScaleOrder.ofGroupSize rows groupSize).target i) 0 = scales.singles.getD i 0 := by
  obtain ⟨hsize, _, rfl⟩ := (move_eq_ok_iff ..).mp h
  have hback := inRun_inRun (ScaleOrder.ofGroupSize rows groupSize).run_pos
    (fun p hp => ScaleOrder.target_lt _ hp) (fun p hp => ScaleOrder.source_target _ hp) i
  have hmoved := Tensor.getD_singles_reorder scales (target_inRun_lt hsize hi)
    (hback.trans_lt hi)
  rw [hmoved, hback]

/-- Scales in the order of the columns are the stored ones at the places they are stored at. -/
theorem getD_unpermute {scales t : Tensor} {rows columns : Nat} {groupSize : Int}
    (h : unpermute scales rows columns groupSize = .ok t) {i : Nat}
    (hi : i < volume scales.shape) :
    t.singles.getD i 0 = scales.singles.getD (inRun (ScaleOrder.ofGroupSize rows groupSize).run
      (ScaleOrder.ofGroupSize rows groupSize).target i) 0 := by
  obtain ⟨hsize, _, rfl⟩ := (move_eq_ok_iff ..).mp h
  exact Tensor.getD_singles_reorder scales hi (target_inRun_lt hsize hi)

end ScaleLayout

end RoutedExperts
