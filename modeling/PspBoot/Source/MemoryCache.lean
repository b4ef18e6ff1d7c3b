import PspBoot.Config
import PspBoot.Source.Blocks

/-!
# Blocks in memory

`Source.memoryCached` keeps recently used blocks of a source in memory.  A block is kept once it
has been read completely; a shorter answer is passed on and asked for again next time.  When the
cache is full the block that has not been used for the longest time makes room: every use stamps
a block with the next reading of a clock that belongs to the cache.

A read that touches more blocks than the cache can hold goes past it.
-/

namespace PspBoot

/-- A block kept in memory. -/
structure KeptBlock where
  index : Nat
  data : Bytes
  /-- The reading of the cache's clock when the block was last used. -/
  stamp : Nat
deriving Repr, Inhabited, DecidableEq

/-- The state of a memory cache. -/
structure MemoryCache where
  /-- The size of the source, from the first time it was asked for. -/
  rememberedSize : Option Nat := none
  blocks : List KeptBlock := []
  clock : Nat := 0
deriving Repr, Inhabited, DecidableEq

namespace MemoryPolicy

/-- The bytes of a block; a cache without any would make no progress, so at least one. -/
def effectiveBlockSize (policy : MemoryPolicy) : Nat := max policy.blockSize 1

/-- The number of blocks that can be kept, at least one. -/
def effectiveCapacity (policy : MemoryPolicy) : Nat := max policy.capacity 1

end MemoryPolicy

namespace MemoryCache

variable {σ : Type}

/-- The block with the given index, if it is kept. -/
def find? (cache : MemoryCache) (index : Nat) : Option KeptBlock :=
  cache.blocks.find? (·.index = index)

/-- The cache after a use of a block that it keeps. -/
def touch (cache : MemoryCache) (index : Nat) : MemoryCache where
  rememberedSize := cache.rememberedSize
  blocks := cache.blocks.map fun block =>
    if block.index = index then { block with stamp := cache.clock + 1 } else block
  clock := cache.clock + 1

/-- The block that was used before all others. -/
def leastRecent? : List KeptBlock → Option KeptBlock
  | [] => none
  | block :: blocks =>
      match leastRecent? blocks with
      | none => some block
      | some other => if block.stamp ≤ other.stamp then some block else some other

/-- The blocks without the one that was used before all others. -/
def evict (blocks : List KeptBlock) : List KeptBlock :=
  match leastRecent? blocks with
  | none => blocks
  | some oldest => blocks.filter (·.index ≠ oldest.index)

/-- The cache with one more block, which was not kept before.  If the cache is full, a block
makes room. -/
def insert (capacity : Nat) (cache : MemoryCache) (index : Nat) (data : Bytes) :
    MemoryCache where
  rememberedSize := cache.rememberedSize
  blocks :=
    { index, data, stamp := cache.clock + 1 } ::
      (if capacity ≤ cache.blocks.length then evict cache.blocks else cache.blocks)
  clock := cache.clock + 1

/-- The size of the source, asked for once. -/
def size (inner : Source σ) : StateM (MemoryCache × σ) Nat := do
  let cache ← Focus.first.lift get
  match cache.rememberedSize with
  | some size => pure size
  | none =>
      let size ← Focus.second.lift inner.size
      Focus.first.lift (modify fun cache => { cache with rememberedSize := some size })
      pure size

/-- A block from the cache, or from the source, in which case it is kept if it is complete. -/
def fetch (capacity : Nat) (inner : Source σ) (grid : BlockGrid) (index : Nat) :
    StateM (MemoryCache × σ) Bytes := do
  let cache ← Focus.first.lift get
  match cache.find? index with
  | some block =>
      Focus.first.lift (set (cache.touch index))
      pure block.data
  | none =>
      let data ← Focus.second.lift (inner.readAt (grid.start index) (grid.width index))
      if data = [] ∨ data.length < grid.width index then
        pure data
      else
        Focus.first.lift (modify fun cache => cache.insert capacity index data)
        pure data

/-- A read by blocks, or past the cache if the blocks would not fit. -/
def readAt (policy : MemoryPolicy) (inner : Source σ) (offset len : Nat) :
    StateM (MemoryCache × σ) Bytes := do
  let total ← size inner
  if total ≤ offset ∨ len = 0 then
    pure []
  else
    let grid : BlockGrid := { blockSize := policy.effectiveBlockSize, total }
    let stop := min (offset + len) total
    let first := grid.indexOf offset
    let last := grid.indexOf (stop - 1)
    if policy.effectiveCapacity ≤ last - first then
      Focus.second.lift (inner.readAt offset (stop - offset))
    else
      grid.collect (fetch policy.effectiveCapacity inner grid) offset stop (last - first + 1)
        first

/-! ### Checked reads -/

/-- The division of a source of a given size into the blocks of a cache. -/
def grid (policy : MemoryPolicy) (total : Nat) : BlockGrid where
  blockSize := policy.effectiveBlockSize
  total

/-- The next reading of the clock has to be a word. -/
def checkClock : Checked (MemoryCache × σ) Unit := do
  let cache ← Checked.lift (Focus.first.lift get)
  let _ ← Checked.add cache.clock 1

/-- `fetch` with every step checked. -/
def fetchChecked (capacity : Nat) (read : CheckedRead σ) (grid : BlockGrid) (index : Nat) :
    Checked (MemoryCache × σ) Bytes := do
  let cache ← Checked.lift (Focus.first.lift get)
  match cache.find? index with
  | some block =>
      checkClock
      Checked.lift (Focus.first.lift (set (cache.touch index)))
      pure block.data
  | none =>
      let start ← Checked.mul index grid.blockSize
      let left ← Checked.sub grid.total start
      let width := min grid.blockSize left
      let data ← (read start width).within Focus.second
      if data = [] ∨ data.length < width then
        pure data
      else
        checkClock
        Checked.lift (Focus.first.lift (modify fun cache => cache.insert capacity index data))
        pure data

/-- What is left of a checked read once the size is known. -/
def readInsideChecked (policy : MemoryPolicy) (read : CheckedRead σ) (offset len total : Nat) :
    Checked (MemoryCache × σ) Bytes := do
  if total ≤ offset ∨ len = 0 then
    pure []
  else
    let stop := min (Checked.addSaturating offset len) total
    let first := (grid policy total).indexOf offset
    let final ← Checked.sub stop 1
    let last := (grid policy total).indexOf final
    let span ← Checked.sub last first
    let length ← Checked.sub stop offset
    if policy.effectiveCapacity ≤ span then
      (read offset length).within Focus.second
    else
      Checked.reserve length
      (grid policy total).collectChecked
        (fetchChecked policy.effectiveCapacity read (grid policy total)) offset stop (span + 1)
        first

/-- `readAt` with every step checked. -/
def readAtChecked (policy : MemoryPolicy) (inner : Source σ) (read : CheckedRead σ) :
    CheckedRead (MemoryCache × σ) :=
  fun offset len => do
    let total ← Checked.lift (size inner)
    readInsideChecked policy read offset len total

end MemoryCache

/-- The source with recently used blocks kept in memory. -/
def Source.memoryCached {σ : Type} (policy : MemoryPolicy) (inner : Source σ) :
    Source (MemoryCache × σ) where
  locator := inner.locator
  isPresent := Focus.second.lift inner.isPresent
  isDirectory := Focus.second.lift inner.isDirectory
  size := MemoryCache.size inner
  readAt := MemoryCache.readAt policy inner
  lastFailure := Focus.second.lift inner.lastFailure
  failureCount := Focus.second.lift inner.failureCount
  hasEntry name := Focus.second.lift (inner.hasEntry name)

end PspBoot
