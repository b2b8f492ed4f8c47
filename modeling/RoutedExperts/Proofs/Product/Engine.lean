import RoutedExperts.Product.Engine
import RoutedExperts.Proofs.Index

/-!
# What the blocked engine computes

The engine stages everything through one scratch buffer. `Ready` is the invariant of that buffer
while an expert's places are worked on: it has room for the three regions, and its first region
holds the expert's weights. A block keeps the invariant and replaces the rows of exactly the slots
it names by their products, whatever the other regions held before. `after_slotEntry_of_mem` and
`after_slotEntry_of_forall_not_mem` are the outcome of a whole run: a slot that one expert works on
gets the product of its definition, and a slot that none works on stays zero.
-/

namespace RoutedExperts

namespace Engine

/-! ### Overwriting a range -/

@[simp] theorem size_write (buffer : Array Float32) (start count : Nat)
    (value : Nat → Float32) : (write buffer start count value).size = buffer.size := by
  unfold write
  induction count with
  | zero => rfl
  | succ count ih => rw [Nat.fold_succ, Array.size_setIfInBounds, ih]

/-- An overwritten range holds the new values, and nothing else changes. -/
theorem getElem?_write (buffer : Array Float32) (start count : Nat) (value : Nat → Float32)
    (i : Nat) : (write buffer start count value)[i]? =
      if start ≤ i ∧ i < start + count ∧ i < buffer.size then some (value (i - start))
      else buffer[i]? := by
  induction count with
  | zero =>
    have h : ¬ (start ≤ i ∧ i < start + 0 ∧ i < buffer.size) := by omega
    rw [if_neg h]
    rfl
  | succ count ih =>
    have hs := size_write buffer start count value
    unfold write at ih hs ⊢
    rw [Nat.fold_succ, Array.getElem?_setIfInBounds, ih, hs]
    by_cases he : start + count = i
    · subst i
      by_cases hb : start + count < buffer.size
      · rw [if_pos rfl, if_pos hb, if_pos ⟨by omega, by omega, hb⟩, Nat.add_sub_cancel_left]
      · rw [if_pos rfl, if_neg hb, if_neg (by omega), Array.getElem?_eq_none (by omega)]
    · have hrange : (start ≤ i ∧ i < start + (count + 1) ∧ i < buffer.size) ↔
          (start ≤ i ∧ i < start + count ∧ i < buffer.size) := by omega
      simp only [he, hrange, ite_false]

/-- Inside the overwritten range the buffer has the values written. -/
theorem getD_write_inside {buffer : Array Float32} {start count i : Nat}
    (value : Nat → Float32) (hi : i < count) (hb : start + count ≤ buffer.size) :
    (write buffer start count value).getD (start + i) 0 = value i := by
  rw [Array.getD_eq_getD_getElem?, getElem?_write, if_pos ⟨by omega, by omega, by omega⟩,
    Nat.add_sub_cancel_left, Option.getD_some]

/-- Outside the overwritten range the buffer is as before. -/
theorem getD_write_outside {buffer : Array Float32} {start count i : Nat}
    (value : Nat → Float32) (hi : i < start ∨ start + count ≤ i) :
    (write buffer start count value).getD i 0 = buffer.getD i 0 := by
  rw [Array.getD_eq_getD_getElem?, getElem?_write, if_neg (by omega),
    ← Array.getD_eq_getD_getElem?]

/-- Overwriting one row of a matrix replaces that row and no other. -/
theorem getD_write_row {matrix : Array Float32} {rows columns r r' n : Nat}
    (value : Nat → Float32) (hm : matrix.size = rows * columns) (hr : r < rows)
    (hn : n < columns) :
    (write matrix (r * columns) columns value).getD (r' * columns + n) 0 =
      if r' = r then value n else matrix.getD (r' * columns + n) 0 := by
  have hend : (r + 1) * columns ≤ rows * columns := Nat.mul_le_mul_right columns hr
  rw [Nat.succ_mul] at hend
  by_cases he : r' = r
  · subst r'
    rw [if_pos rfl]
    exact getD_write_inside value hn (by omega)
  · rw [if_neg he]
    apply getD_write_outside
    rcases Nat.lt_or_gt_of_ne he with hlt | hgt
    · have h : (r' + 1) * columns ≤ r * columns := Nat.mul_le_mul_right columns hlt
      rw [Nat.succ_mul] at h
      omega
    · have h : (r + 1) * columns ≤ r' * columns := Nat.mul_le_mul_right columns hgt
      rw [Nat.succ_mul] at h
      omega

/-! ### One block -/

/-- The weight of an expert that multiplies row `k` of the activations into column `n`. -/
def weight (s : ProductShape) (o : Operands) (expert k n : Nat) : Float32 :=
  tileEntry s o expert (expertValues s o expert) (k * s.columns + n)

/-- The product of a slot by its definition: the slot's activations times the expert's weights,
summed from the first weight row to the last, times the slot's weight. -/
def slotProduct (s : ProductShape) (o : Operands) (expert slot n : Nat) : Float32 :=
  sumProducts s.rows (fun k => o.activations.getD (s.activationRow slot * s.rows + k) 0)
    (weight s o expert · n) * slotWeight o slot

/-- The entry of a slot's row in the result. -/
def slotEntry (s : ProductShape) (state : State) (slot n : Nat) : Float32 :=
  state.slots.getD (slot * s.columns + n) 0

/-- A state between two experts: the scratch buffer has room for the three regions, and the result
has one row for each slot. -/
structure Sized (s : ProductShape) (state : State) : Prop where
  room : Workspace.required s.columns s.rows s.block ≤ state.scratch.size
  slots_size : state.slots.size = s.slots * s.columns

/-- A state between two blocks of an expert: the first region holds the expert's weights. -/
structure Ready (s : ProductShape) (o : Operands) (expert : Nat) (state : State) : Prop
    extends Sized s state where
  staged : ∀ k < s.rows, ∀ n < s.columns,
    state.scratch.getD (k * s.columns + n) 0 = weight s o expert k n

/-- The three regions of the scratch buffer end where the required room ends. -/
theorem productStart_add (s : ProductShape) :
    s.productStart + s.block * s.columns = Workspace.required s.columns s.rows s.block := by
  simp only [ProductShape.productStart, Workspace.required, Nat.mul_add]
  omega

variable {s : ProductShape} {o : Operands}

/-- Staging an expert's weights makes a state ready, whatever the buffer held before. -/
theorem Sized.stageTile {state : State} (h : Sized s state) (expert : Nat) :
    Ready s o expert { state with scratch := stageTile s o expert state.scratch } where
  room := by simpa only [Engine.stageTile, size_write] using h.room
  slots_size := h.slots_size
  staged := by
    intro k hk n hn
    have hroom := h.room
    simp only [Workspace.required] at hroom
    have hw := @getD_write_inside state.scratch 0 (s.rows * s.columns) (k * s.columns + n)
      (tileEntry s o expert (expertValues s o expert)) (rowMajor_lt hk hn) (by omega)
    simpa only [Engine.stageTile, weight, Nat.zero_add] using hw

/-- The gathered rows of a ready buffer, multiplied into its weights. -/
theorem dot_gather {state : State} {expert : Nat} (h : Ready s o expert state)
    {ids : Array Nat} (hids : ids.size ≤ s.block) {row n : Nat} (hrow : row < ids.size)
    (hn : n < s.columns) :
    dot s (gather s o ids state.scratch) row n =
      sumProducts s.rows (fun k => o.activations.getD (s.activationRow ids[row] * s.rows + k) 0)
        (weight s o expert · n) := by
  have hroom := h.room
  have hblock : ids.size * s.rows ≤ s.block * s.rows := Nat.mul_le_mul_right s.rows hids
  simp only [Workspace.required, Nat.mul_add] at hroom
  rw [dot, fold_eq_sumProducts]
  apply sumProducts_congr
  · intro k hk
    have hid : ids.getD row 0 = ids[row] := (Array.getElem_eq_getD 0).symm
    have hend : s.rowStart + ids.size * s.rows ≤ state.scratch.size := by
      simp only [ProductShape.rowStart]
      omega
    rw [gather, Nat.add_assoc, getD_write_inside _ (rowMajor_lt hrow hk) hend, rowMajor_div row hk,
      rowMajor_mod row hk, hid]
  · intro k hk
    have hbefore : k * s.columns + n < s.rowStart := rowMajor_lt hk hn
    rw [gather, getD_write_outside _ (Or.inl hbefore), h.staged k hk n hn]

/-- The third region holds the product of every gathered row. -/
theorem getD_multiply {scratch : Array Float32}
    (hroom : Workspace.required s.columns s.rows s.block ≤ scratch.size) {count : Nat}
    (hcount : count ≤ s.block) {row n : Nat} (hrow : row < count) (hn : n < s.columns) :
    (multiply s count scratch).getD (s.productStart + row * s.columns + n) 0 =
      dot s scratch row n := by
  have hblock : count * s.columns ≤ s.block * s.columns := Nat.mul_le_mul_right s.columns hcount
  have hend := productStart_add s
  unfold multiply
  rw [Nat.add_assoc, getD_write_inside _ (rowMajor_lt hrow hn) (by omega), rowMajor_div row hn,
    rowMajor_mod row hn]

private theorem size_foldl_writeRow (entry : Nat → Nat → Nat → Float32) (columns : Nat)
    (pairs : List (Nat × Nat)) (out : Array Float32) :
    (pairs.foldl (fun out p => write out (p.1 * columns) columns (entry p.1 p.2)) out).size =
      out.size := by
  induction pairs generalizing out with
  | nil => rfl
  | cons p pairs ih => rw [List.foldl_cons, ih, size_write]

-- The rows that a slot is written from may be many; what is written depends on the slot alone, so
-- the last of them does not matter.
private theorem getD_foldl_writeRow {value : Nat → Nat → Float32}
    {entry : Nat → Nat → Nat → Float32} {rows columns slot n : Nat} (hn : n < columns)
    (pairs : List (Nat × Nat))
    (hp : ∀ p ∈ pairs, p.1 < rows ∧ entry p.1 p.2 n = value p.1 n) (out : Array Float32)
    (hout : out.size = rows * columns) :
    (pairs.foldl (fun out p => write out (p.1 * columns) columns (entry p.1 p.2)) out).getD
        (slot * columns + n) 0 =
      if slot ∈ pairs.map Prod.fst then value slot n else out.getD (slot * columns + n) 0 := by
  induction pairs generalizing out with
  | nil => rfl
  | cons p pairs ih =>
    obtain ⟨hr, hv⟩ := hp p (List.mem_cons_self ..)
    rw [List.foldl_cons, ih (fun q hq => hp q (List.mem_cons_of_mem _ hq)) _ (by
      rw [size_write, hout]), getD_write_row (entry p.1 p.2) hout hr hn, hv]
    simp only [List.map_cons, List.mem_cons]
    by_cases hm : slot ∈ pairs.map Prod.fst
    · simp only [hm, or_true, ite_true]
    · by_cases he : slot = p.1
      · subst slot
        simp only [hm, true_or, ite_true, ite_false]
      · simp only [hm, he, or_self, ite_false]

/-- What a block writes to the row of a slot from a row of products. -/
private def scatteredEntry (s : ProductShape) (o : Operands) (scratch : Array Float32)
    (slot row n : Nat) : Float32 :=
  scratch.getD (s.productStart + row * s.columns + n) 0 * slotWeight o slot

private theorem scatter_eq_foldl (ids : Array Nat) (scratch slots : Array Float32) :
    scatter s o ids scratch slots = ids.toList.zipIdx.foldl (fun out p =>
      write out (p.1 * s.columns) s.columns (scatteredEntry s o scratch p.1 p.2)) slots :=
  foldl_zipIdx _ slots ids

@[simp] theorem size_scatter (ids : Array Nat) (scratch slots : Array Float32) :
    (scatter s o ids scratch slots).size = slots.size := by
  rw [scatter_eq_foldl, size_foldl_writeRow]

/-- Scattering replaces the rows of exactly the given slots. -/
theorem getD_scatter {ids : Array Nat} {scratch slots : Array Float32}
    {value : Nat → Nat → Float32} {n : Nat} (hn : n < s.columns)
    (hslots : slots.size = s.slots * s.columns) (hids : ∀ slot ∈ ids, slot < s.slots)
    (hvalue : ∀ row (hr : row < ids.size),
      scratch.getD (s.productStart + row * s.columns + n) 0 * slotWeight o ids[row] =
        value ids[row] n) (slot : Nat) :
    (scatter s o ids scratch slots).getD (slot * s.columns + n) 0 =
      if slot ∈ ids then value slot n else slots.getD (slot * s.columns + n) 0 := by
  have hp : ∀ p ∈ ids.toList.zipIdx, p.1 < s.slots ∧
      scatteredEntry s o scratch p.1 p.2 n = value p.1 n := by
    rintro ⟨slot, row⟩ hp
    obtain ⟨hr, he⟩ := List.getElem?_eq_some_iff.mp (List.mk_mem_zipIdx_iff_getElem?.mp hp)
    have hr : row < ids.size := by simpa only [Array.length_toList] using hr
    have he : ids[row] = slot := by simpa only [Array.getElem_toList] using he
    subst slot
    exact ⟨hids _ (Array.getElem_mem hr), hvalue row hr⟩
  rw [scatter_eq_foldl, getD_foldl_writeRow hn _ hp slots hslots, List.zipIdx_map_fst]
  simp only [Array.mem_toList_iff]

/-- A block keeps the expert's weights in place. -/
theorem Ready.runBlock {state : State} {expert : Nat} (h : Ready s o expert state)
    (places : Array Nat) : Ready s o expert (runBlock s o state places) where
  room := by simpa only [Engine.runBlock, multiply, gather, size_write] using h.room
  slots_size := by simpa only [Engine.runBlock, size_scatter] using h.slots_size
  staged := by
    intro k hk n hn
    have hplace : k * s.columns + n < s.rows * s.columns := rowMajor_lt hk hn
    simp only [Engine.runBlock, multiply, gather]
    rw [getD_write_outside _ (Or.inl (by simp only [ProductShape.productStart]; omega)),
      getD_write_outside _ (Or.inl (by simpa only [ProductShape.rowStart] using hplace)),
      h.staged k hk n hn]

/-- A block replaces the rows of the slots it names by their products, and no other row. -/
theorem runBlock_slotEntry {state : State} {expert : Nat} (h : Ready s o expert state)
    {places : Array Nat} (hplaces : places.size ≤ s.block) {slot n : Nat} (hslot : slot < s.slots)
    (hn : n < s.columns) :
    slotEntry s (runBlock s o state places) slot n =
      if slot ∈ places then slotProduct s o expert slot n else slotEntry s state slot n := by
  have hids : (places.filter (· < s.slots)).size ≤ s.block :=
    (Array.size_filter_le ..).trans hplaces
  have hroom : Workspace.required s.columns s.rows s.block ≤
      (gather s o (places.filter (· < s.slots)) state.scratch).size := by
    simpa only [gather, size_write] using h.room
  have hvalue : ∀ row (hr : row < (places.filter (· < s.slots)).size),
      (multiply s (places.filter (· < s.slots)).size
        (gather s o (places.filter (· < s.slots)) state.scratch)).getD
          (s.productStart + row * s.columns + n) 0 *
        slotWeight o (places.filter (· < s.slots))[row] =
      slotProduct s o expert (places.filter (· < s.slots))[row] n := by
    intro row hr
    rw [getD_multiply hroom hids hr hn, dot_gather h hids hr hn]
    rfl
  have hscatter := getD_scatter (o := o) hn h.slots_size (by simp) hvalue slot
  have hmem : slot ∈ places.filter (· < s.slots) ↔ slot ∈ places := by simp [hslot]
  simpa only [slotEntry, runBlock, hmem] using hscatter

/-! ### The blocks of an expert -/

/-- No block is longer than the block size. -/
theorem size_le_of_mem_blocks {block : Nat} {places b : Array Nat}
    (hb : b ∈ blocks block places) : b.size ≤ block := by
  obtain ⟨i, _, rfl⟩ := List.mem_map.mp hb
  rw [Array.size_extract, Nat.succ_mul]
  omega

/-- The blocks of an expert cover its places. -/
theorem exists_mem_blocks_iff {block : Nat} (hblock : 0 < block) (places : Array Nat)
    (slot : Nat) : (∃ b ∈ blocks block places, slot ∈ b) ↔ slot ∈ places := by
  constructor
  · rintro ⟨b, hb, hslot⟩
    obtain ⟨i, _, rfl⟩ := List.mem_map.mp hb
    obtain ⟨k, hk, rfl⟩ := Array.mem_extract_iff_getElem.mp hslot
    exact Array.getElem_mem _
  · intro hslot
    obtain ⟨p, hp, rfl⟩ := Array.mem_iff_getElem.mp hslot
    have hlow : p / block * block ≤ p := Nat.div_mul_le_self p block
    have hhigh : p < (p / block + 1) * block := Nat.lt_mul_of_div_lt (Nat.lt_succ_self _) hblock
    have hcount : p / block < Block.divUp places.size block := by
      unfold Block.divUp
      rw [Nat.lt_div_iff_mul_lt hblock]
      omega
    refine ⟨_, List.mem_map.mpr ⟨p / block, List.mem_range.mpr hcount, rfl⟩, ?_⟩
    refine Array.mem_extract_iff_getElem.mpr ⟨p - p / block * block, by omega, ?_⟩
    simp only [Nat.add_sub_cancel' hlow]

/-- The invariant and the result of any list of blocks, from what one block does. -/
private theorem foldl_runBlock {expert : Nat} (bs : List (Array Nat))
    (hbs : ∀ b ∈ bs, b.size ≤ s.block) {state : State} (h : Ready s o expert state) :
    Ready s o expert (bs.foldl (runBlock s o) state) ∧
      ∀ slot < s.slots, ∀ n < s.columns, slotEntry s (bs.foldl (runBlock s o) state) slot n =
        if ∃ b ∈ bs, slot ∈ b then slotProduct s o expert slot n else slotEntry s state slot n := by
  induction bs generalizing state with
  | nil => exact ⟨h, fun slot _ n _ => by simp⟩
  | cons b bs ih =>
    have hb := hbs b (List.mem_cons_self ..)
    obtain ⟨hready, hentry⟩ := ih (fun b hb => hbs b (List.mem_cons_of_mem _ hb)) (h.runBlock b)
    refine ⟨hready, fun slot hslot n hn => ?_⟩
    rw [List.foldl_cons, hentry slot hslot n hn, runBlock_slotEntry h hb hslot hn]
    by_cases hbs : ∃ b ∈ bs, slot ∈ b
    · simp [hbs]
    · by_cases hm : slot ∈ b <;> simp [hbs, hm]

/-! ### A whole run -/

/-- An expert with a slot stages its weights and works its blocks off; any other does nothing. -/
private theorem runExpert_cases (state : State) (expert : Nat) :
    runExpert s o state expert = (blocks s.block (o.plan.segment expert)).foldl (runBlock s o)
        { state with scratch := stageTile s o expert state.scratch } ∨
      (∀ slot ∈ o.plan.segment expert, ¬ slot < s.slots) ∧ runExpert s o state expert = state := by
  by_cases h : (o.plan.segment expert).any (· < s.slots) = true
  · exact Or.inl (by simp only [runExpert, h, ite_true])
  · refine Or.inr ⟨fun slot hmem hslot => h ?_, ?_⟩
    · exact Array.any_eq_true'.mpr ⟨slot, hmem, by simpa only [decide_eq_true_eq] using hslot⟩
    · simp only [runExpert, h, Bool.false_eq_true, ite_false]

/-- Between two experts the sizes are kept. -/
theorem Sized.runExpert {state : State} (h : Sized s state) (expert : Nat) :
    Sized s (runExpert s o state expert) := by
  rcases runExpert_cases (s := s) (o := o) state expert with he | ⟨_, he⟩
  · rw [he]
    exact (foldl_runBlock _ (fun _ => size_le_of_mem_blocks) (h.stageTile expert)).1.toSized
  · rwa [he]

/-- An expert replaces the rows of the slots among its places by their products. -/
theorem runExpert_slotEntry (hblock : 0 < s.block) {state : State} (h : Sized s state)
    (expert : Nat) {slot n : Nat} (hslot : slot < s.slots) (hn : n < s.columns) :
    slotEntry s (runExpert s o state expert) slot n =
      if slot ∈ o.plan.segment expert then slotProduct s o expert slot n
      else slotEntry s state slot n := by
  rcases runExpert_cases (s := s) (o := o) state expert with he | ⟨hnone, he⟩
  · rw [he, (foldl_runBlock _ (fun _ => size_le_of_mem_blocks) (h.stageTile expert)).2 slot hslot
      n hn]
    simp only [exists_mem_blocks_iff hblock]
    rfl
  · rw [he, if_neg (fun hmem => hnone slot hmem hslot)]

/-- The state after the first `count` experts. -/
def after (s : ProductShape) (o : Operands) (scratch : Array Float32) (count : Nat) : State :=
  (List.range count).foldl (runExpert s o)
    { scratch := scratch, slots := Array.replicate (s.slots * s.columns) 0 }

theorem after_succ (scratch : Array Float32) (count : Nat) :
    after s o scratch (count + 1) = runExpert s o (after s o scratch count) count := by
  simp only [after, List.range_succ, List.foldl_append, List.foldl_cons, List.foldl_nil]

/-- The sizes of the state hold after any number of experts. -/
theorem sized_after {scratch : Array Float32}
    (hroom : Workspace.required s.columns s.rows s.block ≤ scratch.size) (count : Nat) :
    Sized s (after s o scratch count) := by
  induction count with
  | zero => exact ⟨hroom, Array.size_replicate⟩
  | succ count ih =>
    rw [after_succ]
    exact ih.runExpert count

/-- A slot that none of the first experts works on is still zero after them. -/
theorem after_slotEntry_of_forall_not_mem (hblock : 0 < s.block) {scratch : Array Float32}
    (hroom : Workspace.required s.columns s.rows s.block ≤ scratch.size) {count slot n : Nat}
    (hslot : slot < s.slots) (hn : n < s.columns)
    (hnone : ∀ e < count, slot ∉ o.plan.segment e) :
    slotEntry s (after s o scratch count) slot n = 0 := by
  induction count with
  | zero =>
    have hplace := rowMajor_lt hslot hn
    simp only [slotEntry, after, List.range_zero, List.foldl_nil, Array.getD_eq_getD_getElem?,
      Array.getElem?_replicate, hplace, ite_true, Option.getD_some]
  | succ count ih =>
    rw [after_succ, runExpert_slotEntry hblock (sized_after hroom count) count hslot hn,
      if_neg (hnone count (Nat.lt_succ_self count))]
    exact ih fun e he => hnone e (Nat.lt_succ_of_lt he)

/-- A slot that exactly one of the first experts works on holds that expert's product. -/
theorem after_slotEntry_of_mem (hblock : 0 < s.block) {scratch : Array Float32}
    (hroom : Workspace.required s.columns s.rows s.block ≤ scratch.size)
    {count expert slot n : Nat} (hslot : slot < s.slots) (hn : n < s.columns)
    (hexpert : expert < count) (hmem : slot ∈ o.plan.segment expert)
    (honly : ∀ e < count, slot ∈ o.plan.segment e → e = expert) :
    slotEntry s (after s o scratch count) slot n = slotProduct s o expert slot n := by
  induction count with
  | zero => omega
  | succ count ih =>
    rw [after_succ, runExpert_slotEntry hblock (sized_after hroom count) count hslot hn]
    by_cases he : slot ∈ o.plan.segment count
    · rw [if_pos he, honly count (Nat.lt_succ_self count) he]
    · have hne : expert ≠ count := by
        rintro rfl
        exact he hmem
      rw [if_neg he]
      exact ih (by omega) fun e hlt => honly e (Nat.lt_succ_of_lt hlt)

/-! ### The scratch buffer keeps its size -/

/-- A block keeps the size of the scratch buffer. -/
theorem size_scratch_runBlock (state : State) (places : Array Nat) :
    (runBlock s o state places).scratch.size = state.scratch.size := by
  simp only [runBlock, multiply, gather, size_write]

/-- An expert keeps the size of the scratch buffer. -/
theorem size_scratch_runExpert (state : State) (expert : Nat) :
    (runExpert s o state expert).scratch.size = state.scratch.size := by
  have hblocks : ∀ (bs : List (Array Nat)) (state : State),
      (bs.foldl (runBlock s o) state).scratch.size = state.scratch.size := by
    intro bs
    induction bs with
    | nil => exact fun _ => rfl
    | cons b bs ih =>
      intro state
      rw [List.foldl_cons, ih, size_scratch_runBlock]
  rcases runExpert_cases (s := s) (o := o) state expert with he | ⟨_, he⟩
  · rw [he, hblocks, stageTile, size_write]
  · rw [he]

/-- Any number of experts keeps the size of the scratch buffer. -/
theorem size_scratch_after (scratch : Array Float32) (count : Nat) :
    (after s o scratch count).scratch.size = scratch.size := by
  induction count with
  | zero => rfl
  | succ count ih => rw [after_succ, size_scratch_runExpert, ih]

/-- A run is the state after all experts. -/
theorem run_eq_after (scratch : Array Float32) :
    run s o scratch = after s o scratch s.experts := rfl

/-- The sum of a token's slots, from the first to the last. -/
theorem getD_reduce (slots : Array Float32) {m n : Nat} (hm : m < s.tokens)
    (hn : n < s.columns) :
    (reduce s slots).getD (m * s.columns + n) 0 =
      (List.range s.chosen).foldl (fun sum j =>
        sum + slots.getD ((m * s.chosen + j) * s.columns + n) 0) 0 := by
  have hplace : m * s.columns + n < s.tokens * s.columns := rowMajor_lt hm hn
  rw [reduce, getD_ofFn _ hplace, fold_eq_foldl_range]
  simp only [rowMajor_div m hn, rowMajor_mod m hn]

end Engine

end RoutedExperts
