import PspBoot.BlockStore.Digest
import PspBoot.BlockStore.Sidecar
import PspBoot.Source.Blocks
import PspBoot.Storage.FileTree

/-!
# Block stores

A block store keeps the blocks of one source in a data file, with a sidecar that lists the filled
ones.  Sources that are open at the same time over the same data file share one store, so that a
block which is filled is not written again; the store is closed with the last of them, and then
its sidecar is brought up to date.

`Storage` is what outlives a source: the files, and the stores that are open.  The data file is
never cut.  A block that turns out to be unreadable is simply no longer listed.
-/

namespace PspBoot

/-- An open block store. -/
structure BlockStore where
  /-- The content of the data file. -/
  data : FileId
  /-- The path for which blocks are kept. -/
  path : String
  sidecarPath : String
  /-- The size of the source. -/
  size : Nat
  /-- The blocks that the data file holds. -/
  filled : BlockStore.BlockSet
  /-- Whether a block was stored since the sidecar was last written. -/
  unsaved : Bool := false
  /-- The number of sources that use the store. -/
  holders : Nat := 1
deriving Repr, Inhabited, DecidableEq

/-- A cache directory and a path whose blocks are kept in it. -/
structure CacheEntry where
  directory : String
  path : String
deriving Repr, Inhabited, DecidableEq

namespace CacheEntry

/-- The path of the files of the entry without their endings. -/
def stem (entry : CacheEntry) : String :=
  FilePath.join entry.directory (BlockStore.Digest.render entry.path)

/-- The path of the data file. -/
def dataPath (entry : CacheEntry) : String :=
  entry.stem ++ ".blocks"

/-- The path of the sidecar file. -/
def sidecarPath (entry : CacheEntry) : String :=
  entry.stem ++ ".json"

/-- The key of the store that is open on the data file. -/
def key (entry : CacheEntry) : FilePath.Key :=
  FilePath.key entry.dataPath

/-- The blocks that the sidecar file lists for a source of the given size. -/
def listed (entry : CacheEntry) (files : FileTree) (size : Nat) : BlockStore.BlockSet :=
  BlockStore.Sidecar.listed entry.path size (files.bytesOf entry.sidecarPath)

end CacheEntry

/-- The files of this machine and the block stores that are open on them. -/
structure Storage where
  files : FileTree := {}
  /-- The open stores by data file; no two have the same. -/
  stores : List (FilePath.Key × BlockStore) := []
deriving Repr, Inhabited, DecidableEq

namespace BlockStore

/-- The division of the source into blocks. -/
def grid (store : BlockStore) : BlockGrid where
  blockSize := blockSize
  total := store.size

end BlockStore

namespace Storage

/-- The open store of a data file. -/
def store? (storage : Storage) (key : FilePath.Key) : Option BlockStore :=
  storage.stores.lookup key

/-- The stores with that of a data file replaced. -/
def setStore (storage : Storage) (key : FilePath.Key) (store : BlockStore) : Storage :=
  { storage with
    stores := storage.stores.map fun entry => if entry.1 = key then (key, store) else entry }

/-- The storage with the directory of an entry made. -/
def prepare (storage : Storage) (entry : CacheEntry) : Storage :=
  { storage with files := storage.files.makeDirectories entry.directory }

/-- Adds a store for a source of the given size, once its data file has been opened.  Its blocks
are those of the sidecar. -/
def addStore (storage : Storage) (entry : CacheEntry) (size : Nat) :
    Except FileError (FileId × FileTree) → Option FilePath.Key × Storage
  | .error _ => (none, storage)
  | .ok (data, files) =>
      let store : BlockStore :=
        { data, path := entry.path, sidecarPath := entry.sidecarPath, size
          filled := entry.listed storage.files size }
      (some entry.key, { files, stores := (entry.key, store) :: storage.stores })

/-- Opens a new store for a source of the given size, if the directory of the entry is there. -/
def openNew (storage : Storage) (entry : CacheEntry) (size : Nat) :
    Option FilePath.Key × Storage :=
  if storage.files.isUsableDirectory entry.directory then
    storage.addStore entry size (storage.files.openFile entry.dataPath)
  else
    (none, storage)

/-- Opens the store of an entry for a source of the given size: the store that is already open on
the data file, provided it is for the same size, or a new one. -/
def openStore (storage : Storage) (entry : CacheEntry) (size : Nat) :
    Option FilePath.Key × Storage :=
  match storage.store? entry.key with
  | some store =>
      if store.size = size then
        (some entry.key,
          storage.setStore entry.key { store with holders := store.holders + 1 })
      else
        (none, storage)
  | none => (storage.prepare entry).openNew entry size

/-- Reads a block that is listed.  If the data file does not have it in full, the block is no
longer listed. -/
def loadBlock (storage : Storage) (key : FilePath.Key) (index : Nat) : Option Bytes × Storage :=
  match storage.store? key with
  | none => (none, storage)
  | some store =>
      if index ∈ store.filled then
        let width := store.grid.width index
        match storage.files.readAt store.data (store.grid.start index) width with
        | .ok data =>
            if data.length = width then
              (some data, storage)
            else
              (none, storage.setStore key { store with filled := store.filled.erase index })
        | .error _ =>
            (none, storage.setStore key { store with filled := store.filled.erase index })
      else
        (none, storage)

/-- Writes a block to the data file and lists it.  A block that cannot be written is not
listed. -/
def saveBlock (storage : Storage) (key : FilePath.Key) (index : Nat) (data : Bytes) : Storage :=
  match storage.store? key with
  | none => storage
  | some store =>
      match storage.files.writeAt store.data (store.grid.start index) data with
      | .error _ => storage
      | .ok files =>
          { storage with files }.setStore key
            { store with filled := BlockStore.BlockSet.insert index store.filled, unsaved := true }

/-- Writes the sidecar of a store. -/
def saveSidecar (storage : Storage) (key : FilePath.Key) : Except FileError Unit × Storage :=
  match storage.store? key with
  | none => (.ok (), storage)
  | some store =>
      let text := BlockStore.Sidecar.encode store.path store.size store.filled
      match storage.files.writeFile store.sidecarPath text with
      | .error error => (.error error, storage)
      | .ok files => (.ok (), { storage with files }.setStore key { store with unsaved := false })

/-- Gives up one use of a store.  With the last use the store is closed, and a sidecar that is not
up to date is written, if that is possible. -/
def release (storage : Storage) (key : FilePath.Key) : Storage :=
  match storage.store? key with
  | none => storage
  | some store =>
      if 1 < store.holders then
        storage.setStore key { store with holders := store.holders - 1 }
      else
        let saved := if store.unsaved then (storage.saveSidecar key).2 else storage
        { saved with stores := saved.stores.filter (·.1 ≠ key) }

/-! ### Failures

What a store does when the device fails.  A block that cannot be read is no longer listed, one that
cannot be written is not listed, and a sidecar that cannot be written is left as the failure leaves
it: with its old content, or cut short. -/

/-- What becomes of a block when it is asked for: whether the data file can be read, and the fate of the
write if the block has to be fetched. -/
structure BlockFate where
  unreadable : Bool := false
  write : FileTree.WriteFate := .whole
deriving Repr, Inhabited, DecidableEq

/-- What becomes of a store that is to be opened. -/
inductive OpenFate where
  /-- The device does not fail. -/
  | usual
  /-- The cache directory cannot be made. -/
  | noDirectory
  /-- The sidecar cannot be read. -/
  | noSidecar
  /-- The data file cannot be opened. -/
  | noDataFile
deriving Repr, Inhabited, DecidableEq

/-- Reads a block that is listed, unless the data file cannot be read; then it is no longer listed. -/
def loadBlockAs (unreadable : Bool) (storage : Storage) (key : FilePath.Key) (index : Nat) :
    Option Bytes × Storage :=
  match unreadable, storage.store? key with
  | true, some store =>
      (none, storage.setStore key { store with filled := store.filled.erase index })
  | true, none => (none, storage)
  | false, _ => storage.loadBlock key index

/-- Writes a block to the data file.  If all of it is written, it is listed. -/
def saveBlockAs (fate : FileTree.WriteFate) (storage : Storage) (key : FilePath.Key) (index : Nat)
    (data : Bytes) : Storage :=
  match storage.store? key with
  | none => storage
  | some store =>
      match storage.files.writeAs (storage.files.writeAt store.data (store.grid.start index)) data
        fate with
      | (.error _, files) => { storage with files }
      | (.ok (), files) =>
          { storage with files }.setStore key
            { store with filled := BlockStore.BlockSet.insert index store.filled, unsaved := true }

/-- Writes the sidecar of a store.  Only if all of it is written, the store has nothing unsaved. -/
def saveSidecarAs (fate : FileTree.WriteFate) (storage : Storage) (key : FilePath.Key) :
    Except FileError Unit × Storage :=
  match storage.store? key with
  | none => (.ok (), storage)
  | some store =>
      let text := BlockStore.Sidecar.encode store.path store.size store.filled
      match storage.files.writeAs (storage.files.writeFile store.sidecarPath) text fate with
      | (.error error, files) => (.error error, { storage with files })
      | (.ok (), files) =>
          (.ok (), { storage with files }.setStore key { store with unsaved := false })

/-- Gives up one use of a store.  With the last use the store is closed, whatever becomes of its
sidecar. -/
def releaseAs (fate : FileTree.WriteFate) (storage : Storage) (key : FilePath.Key) : Storage :=
  match storage.store? key with
  | none => storage
  | some store =>
      if 1 < store.holders then
        storage.setStore key { store with holders := store.holders - 1 }
      else
        let saved := if store.unsaved then (storage.saveSidecarAs fate key).2 else storage
        { saved with stores := saved.stores.filter (·.1 ≠ key) }

/-- The storage with nothing listed by the store of a data file. -/
def unlist (storage : Storage) (key : FilePath.Key) : Storage :=
  match storage.store? key with
  | none => storage
  | some store => storage.setStore key { store with filled := [] }

/-- Opens the store of an entry.  A store that is already open needs nothing of the device. -/
def openStoreAs (fate : OpenFate) (storage : Storage) (entry : CacheEntry) (size : Nat) :
    Option FilePath.Key × Storage :=
  match storage.store? entry.key, fate with
  | none, .noDirectory => (none, storage)
  | none, .noSidecar =>
      let opened := storage.openStore entry size
      (opened.1, opened.2.unlist entry.key)
  | none, .noDataFile => (none, storage.prepare entry)
  | _, _ => storage.openStore entry size

end Storage

end PspBoot
