import PspBoot.Proofs.BlockStore.Entry
import PspBoot.Proofs.Storage.FileContent

/-!
# Blocks in a data file

The blocks of all sources that share a data file begin at the same offsets, whatever the sizes of
the sources are; a size only decides how far its last block reaches.  So a block that is written
changes no block of another number, and one of the same number as far as it reaches
(`byte_write_block`).
-/

namespace PspBoot

namespace BlockGrid

/-- An offset lies in a block. -/
def Covers (grid : BlockGrid) (index offset : Nat) : Prop :=
  grid.start index ≤ offset ∧ offset < grid.start index + grid.width index

instance (grid : BlockGrid) (index offset : Nat) : Decidable (grid.Covers index offset) :=
  inferInstanceAs (Decidable (_ ∧ _))

variable {grid : BlockGrid} {index offset : Nat}

theorem Covers.lt_total (h : grid.Covers index offset) : offset < grid.total := by
  have hwidth : grid.width index ≤ grid.total - grid.start index := Nat.min_le_right _ _
  have hinside := h.1
  have hend := h.2
  omega

/-- An offset lies in one block only. -/
theorem Covers.indexOf_eq (h : grid.Covers index offset) : grid.indexOf offset = index := by
  have hwidth := grid.width_le index
  have hbegin := h.1
  have hend := h.2
  apply Nat.div_eq_of_lt_le
  · exact hbegin
  · rw [Nat.succ_mul]
    rw [start] at hend
    omega

theorem covers_indexOf (hsize : grid.blockSize ≠ 0) (h : offset < grid.total) :
    grid.Covers (grid.indexOf offset) offset := by
  have hbegin := grid.start_indexOf_le offset
  have hend := grid.lt_start_indexOf_succ hsize offset
  rw [start_succ] at hend
  exact ⟨hbegin, by rw [width]; omega⟩

/-- A block of the grid has a first byte. -/
theorem covers_start (hsize : grid.blockSize ≠ 0) (h : grid.start index < grid.total) :
    grid.Covers index (grid.start index) := by
  refine ⟨Nat.le_refl _, ?_⟩
  rw [width]
  omega

/-- The part of a block that is one byte long. -/
theorem part_one {block : Bytes} {byte : UInt8} (hbegin : grid.start index ≤ offset)
    (hbyte : block[offset - grid.start index]? = some byte) :
    grid.part index offset (offset + 1) block = [byte] := by
  obtain ⟨hinside, rfl⟩ := List.getElem?_eq_some_iff.mp hbyte
  rw [part, List.drop_take, List.drop_eq_getElem_cons hinside]
  have hone : offset + 1 - grid.start index - (offset - grid.start index) = 1 := by omega
  rw [hone, List.take_succ_cons, List.take_zero]

/-- The bytes of a block, one by one. -/
theorem getElem?_blockOf (grid : BlockGrid) (content : Bytes) (index i : Nat) :
    (grid.blockOf content index)[i]? =
      if i < grid.width index then content[grid.start index + i]? else none :=
  Bytes.getElem?_slice _ _ _ _

/-- Where blocks differ, so do the contents at some offset that they cover. -/
theorem exists_ne_of_blockOf_ne {content other : Bytes}
    (h : grid.blockOf content index ≠ grid.blockOf other index) :
    ∃ offset, grid.Covers index offset ∧ content[offset]? ≠ other[offset]? := by
  apply Classical.byContradiction
  intro hnone
  apply h
  apply List.ext_getElem?
  intro i
  rw [getElem?_blockOf, getElem?_blockOf]
  split
  · next hi =>
    have hcovers : grid.Covers index (grid.start index + i) :=
      ⟨Nat.le_add_right _ _, Nat.add_lt_add_left hi _⟩
    exact Classical.byContradiction fun hne => hnone ⟨_, hcovers, hne⟩
  · rfl

end BlockGrid

/-- The division of a source of the given size into the blocks of a store. -/
def BlockStore.gridFor (size : Nat) : BlockGrid where
  blockSize := BlockStore.blockSize
  total := size

namespace BlockStore

@[simp] theorem total_gridFor (size : Nat) : (gridFor size).total = size := rfl

@[simp] theorem blockSize_gridFor (size : Nat) : (gridFor size).blockSize = blockSize := rfl

theorem grid_eq (store : BlockStore) : store.grid = gridFor store.size := rfl

theorem blockSize_ne_zero : blockSize ≠ 0 := by decide

/-- A data file can hold a block: no byte of it lies behind the greatest offset of a file. -/
def Storable (size index : Nat) : Prop :=
  (gridFor size).start index + (gridFor size).width index ≤ FileTree.maxFileSize

instance (size index : Nat) : Decidable (Storable size index) :=
  inferInstanceAs (Decidable (_ ≤ _))

/-- Where a block can be stored, so can those before it. -/
theorem Storable.of_le {size index other : Nat} (h : Storable size index) (hle : other ≤ index)
    (hinside : (gridFor size).start index < size) : Storable size other := by
  rcases Nat.eq_or_lt_of_le hle with rfl | hless
  · exact h
  · have hnext := (gridFor size).start_mono (show other + 1 ≤ index from hless)
    have hwidth := (gridFor size).width_le other
    rw [BlockGrid.start_succ, blockSize_gridFor] at hnext
    rw [blockSize_gridFor] at hwidth
    rw [Storable] at h ⊢
    omega

/-- The block of an offset is not behind the last one. -/
theorem le_lastBlock {size index offset : Nat} (h : (gridFor size).Covers index offset) :
    index ≤ Sidecar.lastBlock size := by
  have hbegin := h.1
  have hinside : offset < size := h.lt_total
  apply (Nat.le_div_iff_mul_le (Nat.pos_of_ne_zero blockSize_ne_zero)).mpr
  rw [BlockGrid.start, blockSize_gridFor] at hbegin
  omega

end BlockStore

namespace FileContent

open BlockStore

variable {file : FileContent} {content block : Bytes} {size other index written offset : Nat}

/-- A data file has a block in full. -/
def HasBlock (file : FileContent) (size index : Nat) : Prop :=
  Storable size index ∧ (gridFor size).width index ≤ file.size - (gridFor size).start index

instance (file : FileContent) (size index : Nat) : Decidable (file.HasBlock size index) :=
  inferInstanceAs (Decidable (_ ∧ _))

/-- A data file has a block of a content. -/
structure Bears (file : FileContent) (size : Nat) (content : Bytes) (index : Nat) : Prop where
  has : file.HasBlock size index
  byte_eq : ∀ offset, (gridFor size).Covers index offset →
    content[offset]? = some (file.byte offset)

/-- What is read of a block that is there in full is right if all its bytes are. -/
theorem read_eq_blockOf_iff (h : file.HasBlock size index) :
    file.read ((gridFor size).start index) ((gridFor size).width index) =
        (gridFor size).blockOf content index ↔
      ∀ offset, (gridFor size).Covers index offset →
        content[offset]? = some (file.byte offset) := by
  have hfull := h.2
  have hpoint (i : Nat) : (file.read ((gridFor size).start index) ((gridFor size).width index))[i]? =
      if i < (gridFor size).width index then some (file.byte ((gridFor size).start index + i))
      else none := by
    rw [getElem?_read]
    congr 1
    simp only [eq_iff_iff, and_iff_left_iff_imp]
    omega
  constructor
  · intro heq offset hcovers
    have hat := congrArg (·[offset - (gridFor size).start index]?) heq
    have hbegin := hcovers.1
    have hend := hcovers.2
    simp only [hpoint, BlockGrid.getElem?_blockOf] at hat
    rw [if_pos (by omega), if_pos (by omega), Nat.add_sub_cancel' hbegin] at hat
    exact hat.symm
  · intro hbytes
    apply List.ext_getElem?
    intro i
    rw [hpoint, BlockGrid.getElem?_blockOf]
    by_cases hi : i < (gridFor size).width index
    · rw [if_pos hi, if_pos hi, hbytes _ ⟨Nat.le_add_right _ _, by omega⟩]
    · rw [if_neg hi, if_neg hi]

theorem Bears.read_eq (h : file.Bears size content index) :
    file.read ((gridFor size).start index) ((gridFor size).width index) =
      (gridFor size).blockOf content index :=
  (read_eq_blockOf_iff h.has).mpr h.byte_eq

/-! ### Writing a block -/

/-- A data file does not get shorter. -/
theorem HasBlock.write (h : file.HasBlock size index) (start : Nat) (block : Bytes) :
    (file.write start block).HasBlock size index := by
  have hgrows := file.le_size_write start block
  have hfull := h.2
  exact ⟨h.1, by omega⟩

/-- The bytes of a file behind the write of a block: those of other blocks stay. -/
theorem byte_write_block (hlength : block.length ≤ blockSize)
    (hcovers : (gridFor size).Covers index offset) :
    (file.write ((gridFor other).start written) block).byte offset =
      if written = index ∧ offset < (gridFor other).start written + block.length then
        block.getD (offset - (gridFor other).start written) 0
      else file.byte offset := by
  rw [byte_write]
  have hbegin := hcovers.1
  have hend := hcovers.2
  have hwidth := (gridFor size).width_le index
  have hstart : (gridFor other).start written = written * blockSize := rfl
  have hstart' : (gridFor size).start index = index * blockSize := rfl
  rw [blockSize_gridFor] at hwidth
  by_cases hsame : written = index
  · subst hsame
    congr 1
    simp only [eq_iff_iff, true_and]
    omega
  · rw [if_neg, if_neg (fun h => hsame h.1)]
    rintro ⟨hle, hlt⟩
    -- The blocks of other numbers lie on one side of it.
    rcases Nat.lt_or_gt_of_ne hsame with hless | hmore
    · have hnext := Nat.mul_le_mul_right blockSize (show written + 1 ≤ index from hless)
      rw [Nat.succ_mul] at hnext
      omega
    · have hnext := Nat.mul_le_mul_right blockSize (show index + 1 ≤ written from hmore)
      rw [Nat.succ_mul] at hnext
      omega

/-- A byte of a block of a content that is written. -/
theorem byte_write_blockOf (hlength : content.length = size)
    (hcovers : (gridFor size).Covers index offset) :
    content[offset]? = some ((file.write ((gridFor size).start index)
      ((gridFor size).blockOf content index)).byte offset) := by
  have hbegin := hcovers.1
  have hend := hcovers.2
  have hinside : offset < content.length := hlength ▸ hcovers.lt_total
  have hblock : ((gridFor size).blockOf content index).length = (gridFor size).width index :=
    BlockGrid.length_blockOf hlength.symm index
  have hat : ((gridFor size).blockOf content index)[offset - (gridFor size).start index]? =
      content[offset]? := by
    rw [BlockGrid.getElem?_blockOf, if_pos (by omega), Nat.add_sub_cancel' hbegin]
  rw [byte_write_block (by rw [hblock]; exact (gridFor size).width_le index) hcovers,
    if_pos ⟨rfl, by omega⟩, List.getD_eq_getElem?_getD, hat, List.getElem?_eq_getElem hinside,
    Option.getD_some]

/-- A block that can be written is there. -/
theorem hasBlock_write (hstorable : Storable size index)
    (hlength : block.length = (gridFor size).width index) :
    (file.write ((gridFor size).start index) block).HasBlock size index := by
  refine ⟨hstorable, ?_⟩
  rw [size_write]
  split
  · next hempty =>
    rw [hempty] at hlength
    rw [← hlength]
    exact Nat.zero_le _
  · omega

/-- Blocks of other numbers stay as they are. -/
theorem Bears.write_of_ne (h : file.Bears size content index) (hlength : block.length ≤ blockSize)
    (hne : written ≠ index) :
    (file.write ((gridFor other).start written) block).Bears size content index where
  has := h.has.write _ _
  byte_eq offset hcovers := by
    rw [byte_write_block hlength hcovers, if_neg fun hat => hne hat.1]
    exact h.byte_eq offset hcovers

theorem bears_write_self (hstorable : Storable size index) (hlength : content.length = size) :
    (file.write ((gridFor size).start index) ((gridFor size).blockOf content index)).Bears size
      content index where
  has := hasBlock_write hstorable (BlockGrid.length_blockOf hlength.symm index)
  byte_eq _ := byte_write_blockOf hlength

end FileContent

end PspBoot
