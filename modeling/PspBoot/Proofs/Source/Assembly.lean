import PspBoot.Proofs.Source.Content
import PspBoot.Source.Blocks

/-!
# Reads put together from blocks

If every block is delivered, then so is every read that `BlockGrid.collect` puts together from the
blocks it touches.  The blocks lie back to back and cover the content; the assembly stops behind a
block that is not complete, so what it has put together so far is a beginning of the window.
-/

namespace PspBoot.BlockGrid

variable {σ : Type}

/-- The bytes of a block of a content. -/
def blockOf (grid : BlockGrid) (content : Bytes) (index : Nat) : Bytes :=
  Bytes.slice content (grid.start index) (grid.width index)

theorem start_succ (grid : BlockGrid) (index : Nat) :
    grid.start (index + 1) = grid.start index + grid.blockSize := by
  rw [start, start, Nat.add_mul, Nat.one_mul]

theorem start_mono (grid : BlockGrid) {index other : Nat} (h : index ≤ other) :
    grid.start index ≤ grid.start other :=
  Nat.mul_le_mul_right _ h

theorem start_indexOf_le (grid : BlockGrid) (offset : Nat) :
    grid.start (grid.indexOf offset) ≤ offset :=
  Nat.div_mul_le_self _ _

theorem lt_start_indexOf_succ (grid : BlockGrid) (hsize : grid.blockSize ≠ 0) (offset : Nat) :
    offset < grid.start (grid.indexOf offset + 1) := by
  rw [start, indexOf, Nat.mul_comm]
  exact Nat.lt_mul_div_succ offset (Nat.pos_of_ne_zero hsize)

theorem indexOf_start (grid : BlockGrid) (hsize : grid.blockSize ≠ 0) (index : Nat) :
    grid.indexOf (grid.start index) = index :=
  Nat.mul_div_cancel index (Nat.pos_of_ne_zero hsize)

theorem width_le (grid : BlockGrid) (index : Nat) : grid.width index ≤ grid.blockSize :=
  Nat.min_le_left _ _

theorem width_le_total (grid : BlockGrid) (index : Nat) : grid.width index ≤ grid.total :=
  Nat.le_trans (Nat.min_le_right _ _) (Nat.sub_le _ _)

@[simp] theorem length_blockOf {grid : BlockGrid} {content : Bytes}
    (htotal : grid.total = content.length) (index : Nat) :
    (grid.blockOf content index).length = grid.width index := by
  rw [blockOf, Bytes.length_slice, width, htotal]
  omega

/-- The part of a block between two marks is a part of the content. -/
theorem part_blockOf (grid : BlockGrid) (content : Bytes) {index offset stop : Nat} :
    grid.part index offset stop (grid.blockOf content index) =
      Bytes.slice content (max offset (grid.start index))
        (min stop (grid.start index + grid.width index) - max offset (grid.start index)) := by
  rw [part, blockOf, Bytes.take_slice, Bytes.drop_slice]
  rcases Nat.le_total offset (grid.start index) with h | h
  · rw [Nat.max_eq_right h]
    congr 1 <;> omega
  · rw [Nat.max_eq_left h]
    congr 1 <;> omega

theorem part_prefix_part (grid : BlockGrid) (index offset stop : Nat) {block whole : Bytes}
    (h : block <+: whole) :
    grid.part index offset stop block <+: grid.part index offset stop whole := by
  rw [part, part, List.drop_take, List.drop_take]
  apply Bytes.slice_prefix_of_prefix h

/-- What a beginning of a block contributes to a window is a beginning of what is left of it. -/
theorem part_prefix_window {grid : BlockGrid} {content block : Bytes} {index offset stop : Nat}
    (h : block <+: grid.blockOf content index) :
    grid.part index offset stop block <+:
      Bytes.slice content (max offset (grid.start index))
        (stop - max offset (grid.start index)) := by
  have hpart := grid.part_prefix_part index offset stop h
  rw [part_blockOf] at hpart
  exact hpart.trans (Bytes.slice_prefix_slice content _ (by omega))

/-- A block and the blocks behind it make up a window between them.  Only the last block is
narrower than the others, and behind it there is nothing. -/
theorem part_append_window {grid : BlockGrid} {content : Bytes} {index offset stop : Nat}
    (hstop : stop ≤ grid.total) (hbegin : offset < grid.start (index + 1)) :
    grid.part index offset stop (grid.blockOf content index) ++
        Bytes.slice content (max offset (grid.start (index + 1)))
          (stop - max offset (grid.start (index + 1))) =
      Bytes.slice content (max offset (grid.start index))
        (stop - max offset (grid.start index)) := by
  have hnext := grid.start_succ index
  have hwidth : grid.width index = min grid.blockSize (grid.total - grid.start index) := rfl
  rw [part_blockOf, Nat.max_eq_right (Nat.le_of_lt hbegin)]
  rcases Nat.lt_or_ge (grid.start (index + 1)) stop with hlast | hlast
  · have hmin : min stop (grid.start index + grid.width index) = grid.start (index + 1) := by
      omega
    have hfrom : grid.start (index + 1) = max offset (grid.start index) +
        (grid.start (index + 1) - max offset (grid.start index)) := by omega
    rw [hmin]
    conv => lhs; rhs; rw [hfrom]
    rw [Bytes.slice_append_slice]
    congr 1
    omega
  · have hmin : min stop (grid.start index + grid.width index) = stop := by omega
    have hnothing : stop - grid.start (index + 1) = 0 := by omega
    rw [hmin, hnothing, Bytes.slice_eq_nil.mpr (.inl rfl), List.append_nil]

/-- A block that a window begins in or goes through contributes something. -/
theorem part_blockOf_ne_nil {grid : BlockGrid} {content : Bytes} {index offset stop : Nat}
    (hsize : grid.blockSize ≠ 0) (htotal : grid.total = content.length) (hstop : stop ≤ grid.total)
    (hoffset : offset < stop) (hstart : grid.start index < stop)
    (hbegin : offset < grid.start (index + 1)) :
    grid.part index offset stop (grid.blockOf content index) ≠ [] := by
  have hnext := grid.start_succ index
  have hwidth : grid.width index = min grid.blockSize (grid.total - grid.start index) := rfl
  rw [part_blockOf, Ne, Bytes.slice_eq_nil, ← htotal]
  omega

/-- What a complete block contributes is continued by what is delivered behind it. -/
theorem delivered_append {grid : BlockGrid} {content rest : Bytes} {index offset stop : Nat}
    {excuse : Prop} (hstop : stop ≤ grid.total) (hbegin : offset < grid.start (index + 1))
    (h : Delivered grid.total
      (Bytes.slice content (max offset (grid.start (index + 1)))
        (stop - max offset (grid.start (index + 1)))) rest excuse) :
    Delivered grid.total
      (Bytes.slice content (max offset (grid.start index)) (stop - max offset (grid.start index)))
      (grid.part index offset stop (grid.blockOf content index) ++ rest) excuse := by
  have hlength : (Bytes.slice content (max offset (grid.start (index + 1)))
      (stop - max offset (grid.start (index + 1)))).length ≤ grid.total := by
    rw [Bytes.length_slice]
    omega
  rw [← part_append_window hstop hbegin]
  apply Delivered.of_eq_or
  · exact (List.prefix_append_right_inj _).mpr h.isPrefix
  · rcases h.eq_or hlength with rfl | hexcuse
    · exact .inl rfl
    · exact .inr hexcuse

variable {grid : BlockGrid} {content : Bytes} {V E : σ → Prop} {fetch : Nat → StateM σ Bytes}

/-- What the blocks from `index` on contribute to a window.  By induction on their number: a
complete block contributes all it has of the window and the rest follows behind it; any other one
ends the assembly and excuses it. -/
theorem ensures_collect (hsize : grid.blockSize ≠ 0) (htotal : grid.total = content.length)
    (hfetch : ∀ index, grid.start index < grid.total →
      Ensures V E (fetch index) fun data s =>
        Delivered grid.blockSize (grid.blockOf content index) data (E s))
    {offset stop : Nat} (hstop : stop ≤ grid.total) (hoffset : offset < stop)
    (count : Nat) {index : Nat} (hbegin : offset < grid.start (index + 1))
    (hcover : stop ≤ grid.start (index + count))
    (hinside : ∀ k < count, grid.start (index + k) < stop) :
    Ensures V E (grid.collect fetch offset stop count index) fun data s =>
      Delivered grid.total
        (Bytes.slice content (max offset (grid.start index))
          (stop - max offset (grid.start index)))
        data (E s) := by
  induction count generalizing index with
  | zero =>
      intro s hV
      have hempty : Bytes.slice content (max offset (grid.start index))
          (stop - max offset (grid.start index)) = [] := by
        rw [Bytes.slice_eq_nil]
        have : stop ≤ grid.start index := hcover
        omega
      rw [hempty]
      exact .same hV .whole
  | succ count ih =>
      have hstart : grid.start index < stop := hinside 0 (Nat.zero_lt_succ count)
      have hnext := grid.start_succ index
      have hlength : (grid.blockOf content index).length = grid.width index :=
        length_blockOf htotal index
      intro s hV
      apply (hfetch index (by omega) s hV).bind
      intro block t hVt hblock
      by_cases hshort : block.length < grid.width index
      · have hexcuse : E t := by
          rcases hblock.reaches with hreach | hexcuse
          · have := grid.width_le index
            omega
          · exact hexcuse
        split
        · exact .same hVt (.nil hexcuse)
        · exact .same hVt (.of_eq_or (part_prefix_window hblock.isPrefix) (.inr hexcuse))
      · -- The block is complete, so its part is not empty and the next blocks follow.
        obtain rfl : block = grid.blockOf content index :=
          hblock.isPrefix.eq_of_length_le (by omega)
        have hne := part_blockOf_ne_nil hsize htotal hstop hoffset hstart hbegin
        rw [if_neg hne, if_neg hshort]
        have hafter : offset < grid.start (index + 1 + 1) := by
          have := grid.start_succ (index + 1)
          omega
        have hcover' : stop ≤ grid.start (index + 1 + count) := by
          rwa [Nat.add_right_comm]
        have hinside' : ∀ k < count, grid.start (index + 1 + k) < stop := by
          intro k hk
          rw [Nat.add_right_comm]
          exact hinside (k + 1) (by omega)
        apply (ih hafter hcover' hinside' t hVt).bind
        intro rest u hVu hrest
        exact .same hVu (delivered_append hstop hbegin hrest)

/-- A read by blocks delivers the whole window if every block is delivered. -/
theorem ensures_read (grid : BlockGrid) (content : Bytes) (hsize : grid.blockSize ≠ 0)
    (htotal : grid.total = content.length)
    (hfetch : ∀ index, grid.start index < grid.total →
      Ensures V E (fetch index) fun data s =>
        Delivered grid.blockSize (grid.blockOf content index) data (E s))
    {offset len : Nat} (hoffset : offset < grid.total) (hlen : len ≠ 0) :
    Ensures V E
      (grid.collect fetch offset (min (offset + len) grid.total)
        (grid.indexOf (min (offset + len) grid.total - 1) - grid.indexOf offset + 1)
        (grid.indexOf offset))
      fun data s => Delivered grid.total (Bytes.slice content offset len) data (E s) := by
  let stop := min (offset + len) grid.total
  have hstop : stop = min (offset + len) grid.total := rfl
  have hfirst := grid.start_indexOf_le offset
  have hlast := grid.start_indexOf_le (stop - 1)
  have hle : grid.indexOf offset ≤ grid.indexOf (stop - 1) :=
    Nat.div_le_div_right (by omega)
  have h := ensures_collect hsize htotal hfetch (Nat.min_le_right (offset + len) grid.total)
    (show offset < stop by omega) (grid.indexOf (stop - 1) - grid.indexOf offset + 1)
    (grid.lt_start_indexOf_succ hsize offset)
    (by
      rw [← Nat.add_assoc, Nat.add_sub_cancel' hle]
      have := grid.lt_start_indexOf_succ hsize (stop - 1)
      omega)
    (fun k hk => by
      have := grid.start_mono (show grid.indexOf offset + k ≤ grid.indexOf (stop - 1) by omega)
      omega)
  rw [Nat.max_eq_left hfirst] at h
  have hwindow : Bytes.slice content offset (stop - offset) = Bytes.slice content offset len := by
    rw [← Bytes.slice_clip content offset len]
    congr 1
    omega
  rw [hwindow] at h
  exact h

/-- What the fetching of every block keeps, the assembly keeps. -/
theorem ensures_collect_of (count : Nat) {index offset stop : Nat}
    (hfetch : ∀ k < count, Ensures V E (fetch (index + k)) fun _ _ => True) :
    Ensures V E (grid.collect fetch offset stop count index) fun _ _ => True := by
  induction count generalizing index with
  | zero => exact .pure fun _ _ => trivial
  | succ count ih =>
    intro s hV
    apply (hfetch 0 (Nat.zero_lt_succ count) s hV).bind
    intro block t hVt _
    by_cases hnothing : grid.part index offset stop block = []
    · rw [if_pos hnothing]
      exact .same hVt trivial
    rw [if_neg hnothing]
    by_cases hshort : block.length < grid.width index
    · rw [if_pos hshort]
      exact .same hVt trivial
    rw [if_neg hshort]
    have hnext : ∀ k < count, Ensures V E (fetch (index + 1 + k)) fun _ _ => True := by
      intro k hk
      rw [Nat.add_assoc, Nat.add_comm 1 k]
      exact hfetch (k + 1) (Nat.succ_lt_succ hk)
    exact (ih hnext t hVt).bind fun _ _ hVu _ => .same hVu trivial

/-- The blocks that a read touches are blocks of the grid. -/
theorem start_lt_of_read (grid : BlockGrid) {offset stop k : Nat} (hoffset : offset < stop)
    (hk : k < grid.indexOf (stop - 1) - grid.indexOf offset + 1) :
    grid.start (grid.indexOf offset + k) < stop := by
  have hle : grid.indexOf offset ≤ grid.indexOf (stop - 1) := Nat.div_le_div_right (by omega)
  have hstart := grid.start_mono (show grid.indexOf offset + k ≤ grid.indexOf (stop - 1) by omega)
  have hlast := grid.start_indexOf_le (stop - 1)
  omega

/-- One block is cut out of itself. -/
theorem collect_one (grid : BlockGrid) (fetch : Nat → StateM σ Bytes) (offset stop index : Nat)
    (s : σ) :
    grid.collect fetch offset stop 1 index s =
      (grid.part index offset stop (fetch index s).1, (fetch index s).2) := by
  rw [collect, run_bind, run_ite, run_ite]
  split
  · next hnothing => rw [hnothing, run_pure]
  · split
    · rfl
    · rw [collect, run_bind, run_pure, run_pure, List.append_nil]

/-- Nothing comes of an empty block, nor of those behind it. -/
theorem collect_of_nil {offset stop index : Nat} {s : σ} (count : Nat)
    (hnothing : (fetch index s).1 = []) :
    (grid.collect fetch offset stop count index s).1 = [] := by
  cases count with
  | zero => rfl
  | succ count =>
    have hpart : grid.part index offset stop (fetch index s).1 = [] := by
      rw [hnothing, part, List.take_nil, List.drop_nil]
    rw [collect, run_bind, if_pos hpart]
    rfl

/-- The part of a block lies between the marks, however long the block is. -/
theorem length_part_le_window (grid : BlockGrid) (index offset stop : Nat) (block : Bytes) :
    (grid.part index offset stop block).length ≤ stop - max offset (grid.start index) := by
  rw [part, List.length_drop, List.length_take]
  omega

/-- The assembly ends with a block that is too short. -/
theorem collect_of_short {grid : BlockGrid} {fetch : Nat → StateM σ Bytes}
    {offset stop count index : Nat} {s : σ}
    (hshort : (fetch index s).1.length < grid.width index) :
    (grid.collect fetch offset stop (count + 1) index s).1 =
      grid.part index offset stop (fetch index s).1 := by
  rw [collect, run_bind]
  by_cases hnothing : grid.part index offset stop (fetch index s).1 = []
  · rw [if_pos hnothing, hnothing]
    rfl
  · rw [if_neg hnothing, if_pos hshort]
    rfl

/-- A part is no longer than what there is of the block behind the offset. -/
theorem length_part_le (grid : BlockGrid) (index offset stop : Nat) (block : Bytes) :
    (grid.part index offset stop block).length ≤ block.length - (offset - grid.start index) := by
  rw [part, List.length_drop, List.length_take]
  omega

end PspBoot.BlockGrid
