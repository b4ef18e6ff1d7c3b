import PspBoot.Source.DiskCache
import PspBoot.Source.LocalFile
import PspBoot.Source.MemoryCache
import PspBoot.Source.Remote
import PspBoot.Source.Retrying

/-!
# Chains of sources

What is opened for a locator is a chain: a source at its end, and around it the sources that
retry and cache.  `Chain` describes such a chain, `Chain.State` is the state that belongs to it
alone, and `Chain.source` gives its operations on that state and the world.  A `Layer` is a chain
with its present state; it is what the holder of an opened source holds.
-/

namespace PspBoot

/-- The description of a chain, with the innermost source last. -/
inductive Chain (η : Type) where
  /-- A source of the host's own. -/
  | supplied (source : Source η)
  | localFile (locator : Locator) (file : LocalFile)
  | remote (locator : Locator) (transport : Option (Transport η))
  | retrying (policy : RetryPolicy) (inner : Chain η)
  | memoryCached (policy : MemoryPolicy) (inner : Chain η)
  /-- A chain with blocks on disk, in the store of the given data file if there is one. -/
  | diskCached (store : Option FilePath.Key) (inner : Chain η)

namespace Chain

variable {η : Type}

/-- The state that belongs to a chain. -/
def State : Chain η → Type
  | .supplied _ => Unit
  | .localFile _ _ => Unit
  | .remote _ _ => Remote
  | .retrying _ inner => inner.State
  | .memoryCached _ inner => MemoryCache × inner.State
  | .diskCached _ inner => inner.State

/-- The host's state, for a source without a state of its own. -/
def onHost : Focus (Unit × World η) η where
  get s := s.2.host
  put s host := (s.1, { s.2 with host })

instance : (onHost : Focus (Unit × World η) η).Lawful where

/-- The files, for a source without a state of its own. -/
def onFiles : Focus (Unit × World η) FileTree where
  get s := s.2.storage.files
  put s files := (s.1, World.filesFocus.put s.2 files)

instance : (onFiles : Focus (Unit × World η) FileTree).Lawful where

/-- What is known of a remote resource, and the host's state. -/
def onRemote : Focus (Remote × World η) (Remote × η) where
  get s := (s.1, s.2.host)
  put s r := (r.1, { s.2 with host := r.2 })

instance : (onRemote : Focus (Remote × World η) (Remote × η)).Lawful where

/-- A memory cache, and the state behind it. -/
def onCache {σ : Type} : Focus ((MemoryCache × σ) × World η) (MemoryCache × (σ × World η)) where
  get s := (s.1.1, (s.1.2, s.2))
  put _ c := ((c.1, c.2.1), c.2.2)

instance {σ : Type} :
    (onCache : Focus ((MemoryCache × σ) × World η) (MemoryCache × (σ × World η))).Lawful where

/-- The operations of a chain on its state and the world. -/
def source : (chain : Chain η) → Source (chain.State × World η)
  | .supplied source => source.within onHost
  | .localFile locator file => (Source.localFile locator file).within onFiles
  | .remote locator transport => (Source.remote locator transport).within onRemote
  | .retrying policy inner => inner.source.retrying policy
  | .memoryCached policy inner => (inner.source.memoryCached policy).within onCache
  | .diskCached store inner => inner.source.diskCached store

/-- The same, where the device may fail under the outermost disk cache. -/
def sourceAs (fates : Nat → Storage.BlockFate) : (chain : Chain η) → Source (chain.State × World η)
  | .diskCached store inner => inner.source.diskCachedAs fates store
  | chain => chain.source

/-- Reads of a chain with every step of its layers checked.  A source of the host's own has its limits
to itself. -/
def readAtChecked : (chain : Chain η) → CheckedRead (chain.State × World η)
  | .supplied source => fun offset len =>
      Checked.lift ((Chain.supplied source).source.readAt offset len)
  | .localFile _ file => fun offset len => (file.readAtChecked offset len).within onFiles
  | .remote locator transport => fun offset len =>
      (Remote.readAtChecked transport locator.path offset len).within onRemote
  | .retrying policy inner => Retrying.readAtChecked policy inner.source inner.readAtChecked
  | .memoryCached policy inner => fun offset len =>
      (MemoryCache.readAtChecked policy inner.source inner.readAtChecked offset len).within onCache
  | .diskCached store inner => DiskCache.readAtChecked store inner.readAtChecked

/-- What a chain reads. -/
def locator : Chain η → Locator
  | .supplied source => source.locator
  | .localFile locator _ => locator
  | .remote locator _ => locator
  | .retrying _ inner => inner.locator
  | .memoryCached _ inner => inner.locator
  | .diskCached _ inner => inner.locator

/-- Closes the block stores that a chain uses, the innermost first. -/
def close : Chain η → StateM (World η) Unit
  | .supplied _ | .localFile _ _ | .remote _ _ => pure ()
  | .retrying _ inner => inner.close
  | .memoryCached _ inner => inner.close
  | .diskCached store inner => do
      inner.close
      DiskCache.close store

/-- The same, with the fate of the outermost sidecar. -/
def closeAs (fate : FileTree.WriteFate) : Chain η → StateM (World η) Unit
  | .diskCached store inner => do
      inner.close
      DiskCache.closeAs fate store
  | chain => chain.close

@[simp] theorem locator_source (chain : Chain η) : chain.source.locator = chain.locator := by
  induction chain with
  | supplied | localFile | remote => rfl
  | retrying _ _ ih | memoryCached _ _ ih | diskCached _ _ ih => exact ih

end Chain

/-- An opened source: a chain in its present state. -/
structure Layer (η : Type) where
  chain : Chain η
  state : chain.State

namespace Layer

variable {η α : Type}

/-- What the layer reads. -/
def locator (layer : Layer η) : Locator :=
  layer.chain.locator

/-- Lets an action use the layer.  The result has the layer in its new state. -/
def use (layer : Layer η) (action : StateM (layer.chain.State × World η) α) :
    StateM (World η) (α × Layer η) :=
  fun world =>
    let result := action (layer.state, world)
    ((result.1, { chain := layer.chain, state := result.2.1 }), result.2.2)

/-- Whether the target is there. -/
def isPresent (layer : Layer η) : StateM (World η) (Bool × Layer η) :=
  layer.use layer.chain.source.isPresent

/-- Whether the target is a directory. -/
def isDirectory (layer : Layer η) : StateM (World η) (Bool × Layer η) :=
  layer.use layer.chain.source.isDirectory

/-- The length of the target. -/
def size (layer : Layer η) : StateM (World η) (Nat × Layer η) :=
  layer.use layer.chain.source.size

/-- The bytes from `offset` on, at most `len` of them. -/
def readAt (layer : Layer η) (offset len : Nat) : StateM (World η) (Bytes × Layer η) :=
  layer.use (layer.chain.source.readAt offset len)

/-- The same with every step checked; none if the read has stopped. -/
def readAtChecked (layer : Layer η) (offset len : Nat) :
    StateM (World η) (Option Bytes × Layer η) :=
  layer.use (layer.chain.readAtChecked offset len).run

/-- The text of the failure recorded last. -/
def lastFailure (layer : Layer η) : StateM (World η) (Option String × Layer η) :=
  layer.use layer.chain.source.lastFailure

/-- The number of failures recorded. -/
def failureCount (layer : Layer η) : StateM (World η) (Nat × Layer η) :=
  layer.use layer.chain.source.failureCount

/-- Whether a directory has an entry of the given name. -/
def hasEntry (layer : Layer η) (name : String) : StateM (World η) (Bool × Layer η) :=
  layer.use (layer.chain.source.hasEntry name)

/-- Gives up the layer. -/
def close (layer : Layer η) : StateM (World η) Unit :=
  layer.chain.close

/-! ### Opening -/

/-- A layer on a source of the host's own. -/
def supplied (source : Source η) : Layer η where
  chain := .supplied source
  state := ()

/-- A layer on what the locator's path leads to in the file system. -/
def openFile (locator : Locator) : StateM (World η) (Layer η) := do
  let files ← World.filesFocus.lift get
  pure { chain := .localFile locator (LocalFile.look files locator.path), state := () }

/-- A layer on a remote resource. -/
def openRemote (locator : Locator) (transport : Option (Transport η)) : Layer η where
  chain := .remote locator transport
  state := Remote.initial locator transport

/-- The layer with retries around it. -/
def retrying (policy : RetryPolicy) (layer : Layer η) : Layer η where
  chain := .retrying policy layer.chain
  state := layer.state

/-- The layer with an empty memory cache around it. -/
def memoryCached (policy : MemoryPolicy) (layer : Layer η) : Layer η where
  chain := .memoryCached policy layer.chain
  state := ({}, layer.state)

/-- The layer with its blocks kept in a cache directory, if one is given. -/
def diskCached (directory : Option String) (layer : Layer η) : StateM (World η) (Layer η) := do
  match directory with
  | none => pure { chain := .diskCached none layer.chain, state := layer.state }
  | some directory =>
      let (store, layer) ← layer.use (DiskCache.openStore directory layer.chain.source)
      pure { chain := .diskCached store layer.chain, state := layer.state }

/-! ### Outermost caches -/

/-- The number of blocks in the outermost memory cache; none if the outermost source is no memory
cache. -/
def blocksInMemory? (layer : Layer η) : Option Nat :=
  match layer with
  | ⟨.memoryCached _ _, (cache, _)⟩ => some cache.blocks.length
  | _ => none

/-- Whether the outermost source keeps blocks on disk. -/
def usesStore (layer : Layer η) : Bool :=
  match layer.chain with
  | .diskCached (some _) _ => true
  | _ => false

/-- Brings the sidecar of the outermost disk cache up to date. -/
def saveSidecar (layer : Layer η) : StateM (World η) (Except FileError Unit) :=
  match layer.chain with
  | .diskCached store _ => DiskCache.saveSidecar store
  | _ => pure (.ok ())

/-! ### Failures of the device -/

/-- `readAt` with the fates of the blocks on disk. -/
def readAtAs (fates : Nat → Storage.BlockFate) (layer : Layer η) (offset len : Nat) :
    StateM (World η) (Bytes × Layer η) :=
  layer.use ((layer.chain.sourceAs fates).readAt offset len)

/-- `diskCached` with the fate of the store. -/
def diskCachedAs (fate : Storage.OpenFate) (directory : String) (layer : Layer η) :
    StateM (World η) (Layer η) := do
  let (store, layer) ← layer.use (DiskCache.openStoreAs fate directory layer.chain.source)
  pure { chain := .diskCached store layer.chain, state := layer.state }

/-- `saveSidecar` with a fate. -/
def saveSidecarAs (fate : FileTree.WriteFate) (layer : Layer η) :
    StateM (World η) (Except FileError Unit) :=
  match layer.chain with
  | .diskCached store _ => DiskCache.saveSidecarAs fate store
  | _ => pure (.ok ())

/-- `close` with the fate of the sidecar. -/
def closeAs (fate : FileTree.WriteFate) (layer : Layer η) : StateM (World η) Unit :=
  layer.chain.closeAs fate

end Layer

end PspBoot
