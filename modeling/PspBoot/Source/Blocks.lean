import PspBoot.Checked
import PspBoot.Source.Basic

/-!
# Reading by blocks

Both caches divide a source into blocks of one size and put the answer to a read together from
the blocks that it touches.  `BlockGrid` is the division, and `BlockGrid.collect` the assembly: it
goes through the blocks in ascending order and stops behind the first one that is not complete.
-/

namespace PspBoot

/-- A source of `total` bytes divided into blocks of `blockSize` bytes, the last one shorter. -/
structure BlockGrid where
  blockSize : Nat
  total : Nat
deriving Repr, Inhabited, DecidableEq

namespace BlockGrid

variable {σ : Type}

/-- The offset at which a block begins. -/
def start (grid : BlockGrid) (index : Nat) : Nat :=
  index * grid.blockSize

/-- The number of bytes of a block. -/
def width (grid : BlockGrid) (index : Nat) : Nat :=
  min grid.blockSize (grid.total - grid.start index)

/-- The block in which an offset lies. -/
def indexOf (grid : BlockGrid) (offset : Nat) : Nat :=
  offset / grid.blockSize

/-- The part of a block that lies between `offset` and `stop`. -/
def part (grid : BlockGrid) (index offset stop : Nat) (block : Bytes) : Bytes :=
  (block.take (stop - grid.start index)).drop (offset - grid.start index)

/-- The bytes from `offset` to `stop` out of the `count` blocks from `index` on.  The assembly
ends with a block that contributes nothing or is shorter than the grid says. -/
def collect (grid : BlockGrid) (fetch : Nat → StateM σ Bytes) (offset stop : Nat) :
    (count index : Nat) → StateM σ Bytes
  | 0, _ => pure []
  | count + 1, index => do
      let block ← fetch index
      let part := grid.part index offset stop block
      if part = [] then
        pure []
      else if block.length < grid.width index then
        pure part
      else
        let rest ← collect grid fetch offset stop count (index + 1)
        pure (part ++ rest)

/-- `collect` with every step checked. -/
def collectChecked (grid : BlockGrid) (fetch : Nat → Checked σ Bytes) (offset stop : Nat) :
    (count index : Nat) → Checked σ Bytes
  | 0, _ => pure []
  | count + 1, index => do
      let block ← fetch index
      let start ← Checked.mul index grid.blockSize
      let front ← Checked.sub (max offset start) start
      let length ← Checked.sub stop start
      let part := (block.take length).drop front
      if part = [] then
        pure []
      else
        let left ← Checked.sub grid.total start
        if block.length < min grid.blockSize left then
          pure part
        else
          let next ← Checked.add index 1
          let rest ← collectChecked grid fetch offset stop count next
          pure (part ++ rest)

end BlockGrid

end PspBoot
