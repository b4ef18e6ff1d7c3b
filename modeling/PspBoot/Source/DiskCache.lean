import PspBoot.Source.Blocks
import PspBoot.World

/-!
# Blocks on disk

`Source.diskCached` keeps the blocks of a source in a block store, from which later sources for
the same path read them.  A source that is missing, is a directory or has no size is not cached,
nor is one whose store cannot be opened; reads then go straight to it.  So does the read of a
block that the store does not have.
-/

namespace PspBoot

namespace DiskCache

variable {σ η : Type}

/-- The storage, in the state of a source and the world. -/
def storage : Focus (σ × World η) Storage where
  get s := s.2.storage
  put s storage := (s.1, { s.2 with storage })

instance : (storage : Focus (σ × World η) Storage).Lawful where

@[simp] theorem get_storage (s : σ × World η) : storage.get s = s.2.storage := rfl

@[simp] theorem put_storage (s : σ × World η) (kept : Storage) :
    storage.put s kept = (s.1, { s.2 with storage := kept }) := rfl

/-- Opens the store for a source in a cache directory. -/
def openStore (directory : String) (inner : Source (σ × World η)) :
    StateM (σ × World η) (Option FilePath.Key) := do
  if !(← inner.isPresent) then
    pure none
  else if ← inner.isDirectory then
    pure none
  else
    let size ← inner.size
    if size = 0 then
      pure none
    else
      storage.lift fun s => s.openStore { directory, path := inner.locator.path } size

/-- The open store that a source uses, if it uses one. -/
def store? (key : Option FilePath.Key) : StateM (σ × World η) (Option BlockStore) :=
  storage.lift fun s => (key.bind s.store?, s)

/-- A block from the store, or else from the source; one that is complete is stored. -/
def fetch (key : FilePath.Key) (inner : Source (σ × World η)) (grid : BlockGrid) (index : Nat) :
    StateM (σ × World η) Bytes := do
  match ← storage.lift fun s => s.loadBlock key index with
  | some data => pure data
  | none =>
      let data ← inner.readAt (grid.start index) (grid.width index)
      if data.length = grid.width index then
        storage.lift (modify fun s => s.saveBlock key index data)
      pure data

/-- The size for which the store was opened, or that of the source. -/
def size (key : Option FilePath.Key) (inner : Source (σ × World η)) :
    StateM (σ × World η) Nat := do
  match ← store? key with
  | some store => pure store.size
  | none => inner.size

/-- A read by blocks. -/
def readAt (key : Option FilePath.Key) (inner : Source (σ × World η)) (offset len : Nat) :
    StateM (σ × World η) Bytes := do
  match key, ← store? key with
  | some key, some store =>
      if store.size ≤ offset ∨ len = 0 then
        pure []
      else
        let stop := min (offset + len) store.size
        let first := store.grid.indexOf offset
        let last := store.grid.indexOf (stop - 1)
        store.grid.collect (fetch key inner store.grid) offset stop (last - first + 1) first
  | _, _ => inner.readAt offset len

/-! ### Failures

The same operations where the device may fail.  A failure is no more than a reason to go straight to the
source. -/

/-- `openStore` with a fate. -/
def openStoreAs (fate : Storage.OpenFate) (directory : String) (inner : Source (σ × World η)) :
    StateM (σ × World η) (Option FilePath.Key) := do
  if !(← inner.isPresent) then
    pure none
  else if ← inner.isDirectory then
    pure none
  else
    let size ← inner.size
    if size = 0 then
      pure none
    else
      storage.lift fun s => s.openStoreAs fate { directory, path := inner.locator.path } size

/-- `fetch` with the fate of the block. -/
def fetchAs (fate : Storage.BlockFate) (key : FilePath.Key) (inner : Source (σ × World η))
    (grid : BlockGrid) (index : Nat) : StateM (σ × World η) Bytes := do
  match ← storage.lift fun s => s.loadBlockAs fate.unreadable key index with
  | some data => pure data
  | none =>
      let data ← inner.readAt (grid.start index) (grid.width index)
      if data.length = grid.width index then
        storage.lift (modify fun s => s.saveBlockAs fate.write key index data)
      pure data

/-- `readAt` with the fates of the blocks. -/
def readAtAs (fates : Nat → Storage.BlockFate) (key : Option FilePath.Key)
    (inner : Source (σ × World η)) (offset len : Nat) : StateM (σ × World η) Bytes := do
  match key, ← store? key with
  | some key, some store =>
      if store.size ≤ offset ∨ len = 0 then
        pure []
      else
        let stop := min (offset + len) store.size
        let first := store.grid.indexOf offset
        let last := store.grid.indexOf (stop - 1)
        store.grid.collect (fun index => fetchAs (fates index) key inner store.grid index) offset stop
          (last - first + 1) first
  | _, _ => inner.readAt offset len

/-! ### Checked reads -/

/-- `fetch` with every step checked.  What is done to the data file ends behind the block. -/
def fetchChecked (key : FilePath.Key) (read : CheckedRead (σ × World η)) (grid : BlockGrid)
    (index : Nat) : Checked (σ × World η) Bytes := do
  let start ← Checked.mul index grid.blockSize
  let left ← Checked.sub grid.total start
  let width := min grid.blockSize left
  let _ ← Checked.add start width
  match ← Checked.lift (storage.lift fun s => s.loadBlock key index) with
  | some data => pure data
  | none =>
      let data ← read start width
      if data.length = width then
        Checked.lift (storage.lift (modify fun s => s.saveBlock key index data))
        pure data
      else
        pure data

/-- `readAt` with every step checked. -/
def readAtChecked (key : Option FilePath.Key) (read : CheckedRead (σ × World η)) :
    CheckedRead (σ × World η) :=
  fun offset len => do
    match key, ← Checked.lift (store? key) with
    | some key, some store =>
        if store.size ≤ offset ∨ len = 0 then
          pure []
        else
          let stop := min (Checked.addSaturating offset len) store.size
          let length ← Checked.sub stop offset
          Checked.reserve length
          let final ← Checked.sub stop 1
          let first := store.grid.indexOf offset
          let last := store.grid.indexOf final
          store.grid.collectChecked (fetchChecked key read store.grid) offset stop
            (last - first + 1) first
    | _, _ => read offset len

/-- Writes the sidecar of the store now. -/
def saveSidecar (key : Option FilePath.Key) : StateM (World η) (Except FileError Unit) :=
  match key with
  | none => pure (.ok ())
  | some key => World.storageFocus.lift fun s => s.saveSidecar key

/-- Gives up the use of the store. -/
def close (key : Option FilePath.Key) : StateM (World η) Unit :=
  match key with
  | none => pure ()
  | some key => World.storageFocus.lift (modify fun s => s.release key)

/-- `saveSidecar` with a fate. -/
def saveSidecarAs (fate : FileTree.WriteFate) (key : Option FilePath.Key) :
    StateM (World η) (Except FileError Unit) :=
  match key with
  | none => pure (.ok ())
  | some key => World.storageFocus.lift fun s => s.saveSidecarAs fate key

/-- `close` with the fate of the sidecar. -/
def closeAs (fate : FileTree.WriteFate) (key : Option FilePath.Key) : StateM (World η) Unit :=
  match key with
  | none => pure ()
  | some key => World.storageFocus.lift (modify fun s => s.releaseAs fate key)

end DiskCache

/-- The source with its blocks kept in the store of the given data file, if there is one. -/
def Source.diskCached {σ η : Type} (key : Option FilePath.Key) (inner : Source (σ × World η)) :
    Source (σ × World η) where
  locator := inner.locator
  isPresent := inner.isPresent
  isDirectory := inner.isDirectory
  size := DiskCache.size key inner
  readAt := DiskCache.readAt key inner
  lastFailure := inner.lastFailure
  failureCount := inner.failureCount
  hasEntry := inner.hasEntry

/-- The same, where the device may fail under a read. -/
def Source.diskCachedAs {σ η : Type} (fates : Nat → Storage.BlockFate) (key : Option FilePath.Key)
    (inner : Source (σ × World η)) : Source (σ × World η) :=
  { inner.diskCached key with readAt := DiskCache.readAtAs fates key inner }

end PspBoot
