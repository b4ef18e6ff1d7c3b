import PspBoot.Proofs.Chain.Custody
import PspBoot.Proofs.Source.Retained

/-!
# Stored blocks are never lost

All layers that are opened for an entry tell the same size, but what they read may differ every time.
As soon as one of them has read a block in full, the block is there for good: it is written once,
every later read has its bytes from the store, and no layer asks the source behind it for the block
again.  It does not matter whether the layers are open at the same time or one after the other, or
when a sidecar is saved.
-/

namespace PspBoot

variable {η : Type}

/-- What is asked of a chain if a store is to be opened for it in any case, for states of its own with
`P` and states of the host with `J`. -/
structure Chain.Sized (chain : Chain η) (size : Nat) (P : chain.State → Prop) (J : η → Prop) :
    Prop where
  sized : DiskCache.Sized chain.source size fun r => P r.1 ∧ J r.2
  close : ∀ world, J world.host →
    J (chain.close world).2.host ∧ (chain.close world).2.storage = world.storage

/-- The same of a layer. -/
def Layer.Sized (layer : Layer η) (size : Nat) (J : η → Prop) : Prop :=
  ∃ P, layer.chain.Sized size P J ∧ P layer.state

/-- Whatever blocks a layer delivers may be kept. -/
theorem Layer.Sized.cacheable {layer : Layer η} {size : Nat} {J : η → Prop}
    (h : layer.Sized size J) : layer.Cacheable size (fun _ _ => True) J := by
  obtain ⟨P, hchain, hstate⟩ := h
  exact ⟨P, ⟨hchain.sized.cacheable, hchain.close⟩, hstate⟩

/-- What an action of the host's own guarantees, it guarantees beside the storage. -/
theorem Chain.ensures_onHost {α : Type} {action : StateM η α} {J : η → Prop} {Q : α → Prop}
    (h : Ensures J (fun _ => True) action fun a _ => Q a) (kept : Storage) :
    Ensures (DiskCache.Beside (fun r : Unit × η => True ∧ J r.2) (· = kept)) (fun _ => True)
      (Chain.onHost.lift action) fun a _ => Q a :=
  fun s hs =>
    have hrun := h s.2.host hs.1.2
    ⟨⟨⟨trivial, hrun.valid⟩, hs.2⟩, id, hrun.post⟩

/-- A source of the host's own that is there and always tells the same size. -/
theorem Layer.sized_supplied {source : Source η} {size : Nat} {J : η → Prop}
    (hpresent : Ensures J (fun _ => True) source.isPresent fun yes _ => yes = true)
    (hdirectory : Ensures J (fun _ => True) source.isDirectory fun yes _ => yes = false)
    (hsize : Ensures J (fun _ => True) source.size fun n _ => n = size)
    (hread : ∀ offset len, Ensures J (fun _ => True) (source.readAt offset len) fun _ _ => True)
    (hlength : ∀ offset len s, (source.readAt offset len s).1.length ≤ len) :
    (Layer.supplied source).Sized size J := by
  refine ⟨fun _ => True, ⟨?_, fun _ hhost => ⟨hhost, rfl⟩⟩, trivial⟩
  constructor
  case isPresent => exact Chain.ensures_onHost hpresent
  case isDirectory => exact Chain.ensures_onHost hdirectory
  case size => exact Chain.ensures_onHost hsize
  case readAt => exact fun kept offset len => Chain.ensures_onHost (hread offset len) kept
  case length_le => exact fun offset len s => hlength offset len s.2.host

/-- A source that counts its reads, and has the number of those before it in every byte. -/
def Source.counting (locator : Locator) (size : Nat) : Source Nat where
  locator := locator
  isPresent := pure true
  isDirectory := pure false
  size := pure size
  readAt offset len := fun count =>
    (List.replicate (min len (size - offset)) (UInt8.ofNat count), count + 1)
  lastFailure := pure none

theorem Layer.sized_counting (locator : Locator) (size : Nat) :
    (Layer.supplied (Source.counting locator size)).Sized size fun _ => True := by
  apply Layer.sized_supplied
  case hpresent => exact .pure fun _ _ => rfl
  case hdirectory => exact .pure fun _ _ => rfl
  case hsize => exact .pure fun _ _ => rfl
  case hread => exact fun offset len count _ => ⟨trivial, id, trivial⟩
  case hlength =>
    intro offset len count
    change (List.replicate _ _).length ≤ len
    rw [List.length_replicate]
    exact Nat.min_le_left _ _

/-- A disk cache with the store of an entry. -/
inductive Stored (entry : CacheEntry) (size : Nat) (J : η → Prop) : Layer η → Prop
  | around {chain : Chain η} {P : chain.State → Prop} {state : chain.State}
      (h : chain.Sized size P J) (hstate : P state) :
      Stored entry size J ⟨.diskCached (some entry.key) chain, state⟩

namespace EntryUsers

open BlockStore Ledger

variable {entry : CacheEntry} {size index : Nat} {J : η → Prop} {users : EntryUsers η}
  {fresh : Storage → Prop} {I : Ledger → Prop} {data : Bytes}

/-- What a step asks of the layer that it brings in: it is one for the path and the size. -/
def Repeats (path : String) (size : Nat) (J : η → Prop) : EntryStep η → Prop
  | .attach told inner => told = size ∧ inner.locator.path = path ∧ inner.Sized size J
  | _ => True

/-- An entry that has never been used, but can be. -/
def Fresh (entry : CacheEntry) (size : Nat) (storage : Storage) : Prop :=
  storage.Untouched entry ∧ (storage.openStore entry size).1.isSome = true

/-- An entry is fresh, or kept as a ledger says. -/
def FreshOrKept (fresh : Storage → Prop) (entry : CacheEntry) (I : Ledger → Prop)
    (storage : Storage) : Prop :=
  fresh storage ∨ storage.Kept entry I

/-- Where an entry is fresh, a store can be opened. -/
theorem Fresh.openStore {storage : Storage} (h : Fresh entry size storage)
    (hsize : size < UInt64.size) :
    (storage.openStore entry size).1 = some entry.key ∧
      (storage.openStore entry size).2.Kept entry (Steady entry.path size) := by
  obtain ⟨hnew, hopens⟩ := h
  rcases hnew.vacant size with hrefused | ⟨home, hvacant⟩
  · rw [hrefused] at hopens
    cases hopens
  · obtain ⟨hkey, hkeeps, -⟩ := Storage.openStore_of_vacant hnew.closed hvacant size
    have hblank : Steady entry.path size
        { data := (storage.prepare entry).files.contents.length, label? := none } :=
      .of_blank rfl rfl rfl
    exact ⟨hkey, home, _, hkeeps, (hblank.openStore hsize).2.1⟩

/-- A steady entry is opened whenever it is asked for. -/
theorem openStore_of_kept {storage : Storage} (h : storage.Kept entry I)
    (hI : ∀ {ledger}, I ledger → ledger.Steady entry.path size) (hsize : size < UInt64.size) :
    (storage.openStore entry size).1 = some entry.key := by
  obtain ⟨home, ledger, hkeeps, hledger⟩ := h
  exact (hkeeps.openStore size).1.trans ((hI hledger).openStore hsize).1

theorem openStore_of_freshOrKept (hsize : size < UInt64.size) {storage : Storage}
    (h : FreshOrKept (Fresh entry size) entry (Steady entry.path size) storage) :
    (storage.openStore entry size).1 = some entry.key := by
  rcases h with hfresh | hkept
  · exact (hfresh.openStore hsize).1
  · exact openStore_of_kept hkept id hsize

/-- The users of one path and one size keep it steady. -/
theorem upkeep_steady (entry : CacheEntry) (hsize : size < UInt64.size) :
    Storage.Upkeep (FreshOrKept (Fresh entry size) entry (Steady entry.path size))
      entry.directory (OneSize entry size) fun _ _ _ _ => True := by
  refine Storage.upkeep_kept (Steady.stable entry hsize) And.left And.left ?_
  rintro storage total hfresh ⟨-, rfl⟩
  exact .inr (hfresh.openStore hsize).2

/-- They keep every block that is there. -/
theorem upkeep_retains (entry : CacheEntry) (hsize : size < UInt64.size) (index : Nat)
    (data : Bytes) :
    Storage.Upkeep (FreshOrKept (fun _ => False) entry (Retains entry.path size index data))
      entry.directory (OneSize entry size) fun _ _ _ _ => True :=
  Storage.upkeep_kept (Retains.stable entry hsize index data) And.left False.elim
    fun hfresh _ => hfresh.elim

/-- What holds at any time of layers that all use the store of one entry. -/
structure Storing (kept : Storage → Prop) (entry : CacheEntry) (size : Nat) (J : η → Prop)
    (users : EntryUsers η) : Prop where
  custody : Custody kept entry.directory (OneSize entry size) (fun _ _ _ _ => True) J users
  stored : ∀ user ∈ users.layers, Stored entry size J user.2

/-- A layer of one path and one size may always be attached. -/
theorem admitted_of_repeats {next : EntryStep η} (hnext : Repeats entry.path size J next) :
    Admitted entry.directory (OneSize entry size) (fun _ _ _ _ => True) J users next := by
  cases next with
  | attach told inner =>
    obtain ⟨rfl, hpath, hinner⟩ := hnext
    exact ⟨⟨hpath, rfl⟩, hinner.cacheable, fun lease _ hsame => ⟨hsame, fun _ _ _ => trivial⟩⟩
  | ask | saveSidecar | close => trivial

namespace Storing

variable {kept : Storage → Prop}

/-- A new layer gets the store. -/
theorem attach (h : Storing kept entry size J users)
    (hopens : ∀ {storage}, kept storage → (storage.openStore entry size).1 = some entry.key)
    (hsome : size ≠ 0) {told : Nat} {inner : Layer η}
    (hinner : Repeats entry.path size J (.attach told inner)) :
    Stored entry size J (inner.diskCached (some entry.directory) users.world).1 := by
  obtain ⟨-, hpath, P, hchain, hstate⟩ := hinner
  have hlocator : inner.chain.source.locator.path = entry.path := by
    rw [Chain.locator_source]
    exact hpath
  have hV : P inner.state ∧ J users.world.host := ⟨hstate, h.custody.host⟩
  have hvalid := (hchain.sized.cacheable.openStore (s := (inner.state, users.world)) hV
    entry.directory).1
  have hopened := hchain.sized.openStore entry (inner.state, users.world) hlocator hsome hV
  have hkey := (congrArg Prod.fst hopened).trans (hopens h.custody.kept)
  rw [Layer.run_diskCached]
  dsimp only at hkey ⊢
  rw [hkey]
  exact .around hchain hvalid.1

/-- A layer that is asked keeps its store. -/
theorem ask_layer (h : Storing kept entry size J users)
    (hupkeep : Storage.Upkeep kept entry.directory (OneSize entry size) fun _ _ _ _ => True)
    {told : Nat} {layer : Layer η} (hmem : (told, layer) ∈ users.layers) (call : Call) :
    Stored entry size J (layer.ask call users.world).1.2 := by
  obtain ⟨-, rfl⟩ := h.custody.told _ hmem
  obtain ⟨hchain, hstate⟩ := h.stored _ hmem
  exact .around hchain (h.custody.ask_chain hupkeep hmem hchain.sized.cacheable hstate call).1.1

/-- **Every step leaves all layers with the store.** -/
theorem step (h : Storing kept entry size J users)
    (hupkeep : Storage.Upkeep kept entry.directory (OneSize entry size) fun _ _ _ _ => True)
    (hopens : ∀ {storage}, kept storage → (storage.openStore entry size).1 = some entry.key)
    (hsome : size ≠ 0) (next : EntryStep η) (hnext : Repeats entry.path size J next) :
    Storing kept entry size J (users.step entry.directory next) where
  custody := h.custody.step hupkeep next (admitted_of_repeats hnext)
  stored := by
    apply step_forall_layers h.stored
    case hattach =>
      rintro told inner rfl
      exact h.attach hopens hsome hnext
    case hask => exact fun call told layer hmem => h.ask_layer hupkeep hmem call

/-- So does a run. -/
theorem run (h : Storing kept entry size J users)
    (hupkeep : Storage.Upkeep kept entry.directory (OneSize entry size) fun _ _ _ _ => True)
    (hopens : ∀ {storage}, kept storage → (storage.openStore entry size).1 = some entry.key)
    (hsome : size ≠ 0) (steps : List (EntryStep η))
    (hsteps : ∀ next ∈ steps, Repeats entry.path size J next) :
    Storing kept entry size J (users.run entry.directory steps) := by
  induction steps generalizing users with
  | nil => exact h
  | cons next steps ih =>
    have hfirst := h.step hupkeep hopens hsome next (hsteps next List.mem_cons_self)
    exact ih hfirst fun other hother => hsteps other (List.mem_cons_of_mem _ hother)

/-- A layer that is open finds the entry in use. -/
theorem serving (h : Storing (FreshOrKept fresh entry I) entry size J users)
    (hfresh : ∀ {storage}, fresh storage → storage.store? entry.key = none)
    (hI : ∀ {ledger}, I ledger → ledger.Steady entry.path size)
    {told : Nat} {layer : Layer η} (hmem : (told, layer) ∈ users.layers) :
    users.world.storage.Kept entry fun ledger => ledger.Serving entry.path size ∧ I ledger := by
  have hkey : layer.storeKey? = some entry.key := by
    have hstored := h.stored _ hmem
    cases hstored with
    | around => rfl
  obtain ⟨lease, hlease, -⟩ := h.custody.exists_lease hmem hkey
  obtain ⟨store, hstore, -⟩ := Storage.exists_store_of_lease? hlease
  rcases h.custody.kept with hnew | ⟨home, ledger, hkeeps, hledger⟩
  · cases (hfresh hnew).symm.trans hstore
  · exact ⟨home, ledger, hkeeps, ⟨hI hledger, store, hkeeps.store_eq.symm.trans hstore⟩, hledger⟩

end Storing

/-! ### Single reads -/

/-- A layer that reads a block in full leaves it stored. -/
theorem retains_ask {world : World η} {layer : Layer η} {offset len : Nat} {read : SourceRead}
    (hlayer : Stored entry size J layer) (hhost : J world.host)
    (hserving : world.storage.Kept entry fun ledger => ledger.Serving entry.path size)
    (hstorable : Storable size index) (hread : read ∈ layer.innerReads offset len world)
    (hdelivers : read.Delivers size index) :
    (layer.ask (.readAt offset len) world).2.storage.Kept entry
      (Retains entry.path size index read.data) := by
  obtain ⟨hchain, hstate⟩ := hlayer
  rename_i chain P state
  obtain ⟨home, ledger, hkeeps, hledger⟩ := hserving
  have hrun := DiskCache.stores_readAt hchain.sized hstorable offset len (([], state), world)
    ⟨⟨hstate, hhost⟩, home, ledger, hkeeps, hledger, fun read hread => by cases hread⟩
  obtain ⟨-, home', ledger', hkeeps', -, hstored⟩ := hrun.valid
  refine ⟨home', ledger', ?_, hstored read hread hdelivers⟩
  change (DiskCache.readAt (some entry.key) chain.source offset len (state, world)).2.2.storage.Keeps
    entry home' ledger'
  rw [DiskCache.readAt_eq_recorded]
  exact hkeeps'

/-- A layer that reads where a block is stored has the bytes of it from the store. -/
theorem readAt_of_retains {world : World η} {layer : Layer η} {stored : Bytes}
    (hlayer : Stored entry size J layer) (hhost : J world.host)
    (hserving : world.storage.Kept entry fun ledger =>
      ledger.Serving entry.path size ∧ ledger.Retains entry.path size index stored)
    (hstored : stored.length = (gridFor size).width index) (offset len : Nat) :
    (∀ read ∈ layer.innerReads offset len world,
        ¬(gridFor size).Touches index read.offset read.len) ∧
      (gridFor size).Agrees index stored offset (layer.readAt offset len world).1.1 ∧
        ((gridFor size).Covers index offset →
          Bytes.slice stored (offset - (gridFor size).start index) len <+:
            (layer.readAt offset len world).1.1) := by
  obtain ⟨hchain, hstate⟩ := hlayer
  rename_i chain P state
  obtain ⟨home, ledger, hkeeps, hledger⟩ := hserving
  have hrun := DiskCache.spares_readAt hchain.sized hstored offset len (([], state), world)
    ⟨⟨hstate, hhost⟩, home, ledger, hkeeps, hledger, fun read hread => by cases hread⟩
  obtain ⟨-, -, -, -, -, hspared⟩ := hrun.valid
  refine ⟨hspared, ?_⟩
  change (gridFor size).Agrees index stored offset
      (DiskCache.readAt (some entry.key) chain.source offset len (state, world)).1 ∧
    (_ → _ <+: (DiskCache.readAt (some entry.key) chain.source offset len (state, world)).1)
  rw [DiskCache.readAt_eq_recorded]
  exact hrun.post

/-! ### Runs -/

/-- From the first layer on all of them use the store. -/
theorem storing_run {start : World η} (hhost : J start.host)
    (hfresh : Fresh entry size start.storage) (hsome : size ≠ 0) (hsize : size < UInt64.size)
    (steps : List (EntryStep η)) (hsteps : ∀ next ∈ steps, Repeats entry.path size J next) :
    Storing (FreshOrKept (Fresh entry size) entry (Steady entry.path size)) entry size J
      (run entry.directory { world := start } steps) := by
  have hnobody : Storing (FreshOrKept (Fresh entry size) entry (Steady entry.path size)) entry size J
      { world := start } := by
    refine ⟨.nobody hhost (.inl hfresh) ?_, fun user hmem => by cases hmem⟩
    rintro key ⟨path, total, ⟨rfl, rfl⟩, rfl⟩
    exact hfresh.1.closed
  exact hnobody.run (upkeep_steady entry hsize) (openStore_of_freshOrKept hsize) hsome steps hsteps

/-- From the first read on that delivered a block in full, all layers have it. -/
theorem storing_ask (h : Storing (FreshOrKept (Fresh entry size) entry (Steady entry.path size))
      entry size J users) (hsome : size ≠ 0) (hsize : size < UInt64.size)
    (hstorable : Storable size index) {user told offset len : Nat} {layer : Layer η}
    {read : SourceRead} (hfound : users.layers[user]? = some (told, layer))
    (hread : read ∈ layer.innerReads offset len users.world)
    (hdelivers : read.Delivers size index) (after : List (EntryStep η))
    (hafter : ∀ next ∈ after, Repeats entry.path size J next) :
    Storing (FreshOrKept (fun _ => False) entry (Retains entry.path size index read.data)) entry size J
      (users.run entry.directory (.ask user (.readAt offset len) :: after)) := by
  have hmem := List.mem_of_getElem? hfound
  obtain ⟨home, ledger, hkeeps, hserving, -⟩ := h.serving (fun hfresh => hfresh.1.closed) id hmem
  have hretains := retains_ask (h.stored _ hmem) h.custody.host ⟨home, ledger, hkeeps, hserving⟩
    hstorable hread hdelivers
  have hstep : (users.step entry.directory (.ask user (.readAt offset len))).world =
      (layer.ask (.readAt offset len) users.world).2 := by
    rw [step, hfound]
  have hasked := h.step (upkeep_steady entry hsize) (openStore_of_freshOrKept hsize) hsome
    (.ask user (.readAt offset len)) trivial
  have hstored : Storing (FreshOrKept (fun _ => False) entry
      (Retains entry.path size index read.data)) entry size J
      (users.step entry.directory (.ask user (.readAt offset len))) :=
    ⟨hasked.custody.rekeep (.inr (hstep ▸ hretains)), hasked.stored⟩
  exact hstored.run (upkeep_retains entry hsize index read.data)
    (fun hkept => openStore_of_kept (hkept.resolve_left id) Retains.steady hsize) hsome after hafter

/-- **A block that was read in full is there for good.**  Layers for one path and one size are opened,
asked, saved and closed in any order, in a cache directory where nothing has been kept yet for the
path and a store can be opened.  Once one of them has read a block in full that the data file can
hold, the data file gets this block and is never written there again.  No layer asks the source behind
it for any byte of the block, every byte of it that is read is the one that was read first, and a read
that begins in the block has all of it that was asked for. -/
theorem stored_block_run {entry : CacheEntry} {size index : Nat} (J : η → Prop) {start : World η}
    (hhost : J start.host) (hnew : start.storage.Untouched entry)
    (hopens : (start.storage.openStore entry size).1.isSome = true) (hsome : size ≠ 0)
    (hsize : size < UInt64.size) (hstorable : Storable size index) (before after : List (EntryStep η))
    (hbefore : ∀ next ∈ before, Repeats entry.path size J next)
    (hafter : ∀ next ∈ after, Repeats entry.path size J next) {user told offset len : Nat}
    {layer : Layer η} {read : SourceRead}
    (hfound : (run entry.directory { world := start } before).layers[user]? = some (told, layer))
    (hread : read ∈ layer.innerReads offset len (run entry.directory { world := start } before).world)
    (hdelivers : read.Delivers size index) :
    let grid := gridFor size
    let users := run entry.directory { world := start }
      (before ++ .ask user (.readAt offset len) :: after)
    (∃ file, users.world.storage.files.file? entry.dataPath = some file ∧
        file.writesOf size index = [(grid.start index, read.data)]) ∧
      ∀ reader ∈ users.layers, ∀ offset len,
        let data := (reader.2.readAt offset len users.world).1.1
        (∀ later ∈ reader.2.innerReads offset len users.world,
            ¬grid.Touches index later.offset later.len) ∧
          grid.Agrees index read.data offset data ∧
            (grid.Covers index offset →
              Bytes.slice read.data (offset - grid.start index) len <+: data) := by
  have hfirst := storing_run hhost ⟨hnew, hopens⟩ hsome hsize before hbefore
  have hlast := storing_ask hfirst hsome hsize hstorable hfound hread hdelivers after hafter
  rw [← run_append] at hlast
  intro grid users
  constructor
  · rcases hlast.custody.kept with hnone | ⟨home, ledger, hkeeps, hretains⟩
    · exact hnone.elim
    · refine ⟨ledger.file, hkeeps.stands.file?_dataPath, ?_⟩
      rw [hretains.steady.written index hretains.lists, hretains.block_eq]
  · rintro ⟨told, reader⟩ hreader offset len
    exact readAt_of_retains (hlast.stored _ hreader) hlast.custody.host
      (hlast.serving False.elim Retains.steady hreader) hdelivers.2 offset len

/-- The first layer has read zeros, and the one that is opened after it gets them too, although the
source now has ones. -/
theorem stored_block_run_reopened :
    let entry : CacheEntry := { directory := "cache", path := "http://host/game" }
    let inner : Layer Nat := .supplied (.counting (.ofPath entry.path) 3)
    let users := run entry.directory { world := { host := 0 } }
      [.attach 3 inner, .ask 0 (.readAt 0 3), .close 0, .attach 3 inner]
    users.world.host = 1 ∧ users.layers.length = 1 ∧
      (∃ file, users.world.storage.files.file? entry.dataPath = some file ∧
        file.writesOf 3 0 = [(0, [0, 0, 0])]) ∧
      ∀ reader ∈ users.layers, [0, 0] <+: (reader.2.readAt 1 2 users.world).1.1 := by
  intro entry inner users
  have hnew : ({} : Storage).Untouched entry := ⟨rfl, by decide +kernel, by decide +kernel⟩
  have hopens : (({} : Storage).openStore entry 3).1.isSome = true := by decide +kernel
  have hinner : Repeats entry.path 3 (fun _ => True) (.attach 3 inner) :=
    ⟨rfl, rfl, Layer.sized_counting _ 3⟩
  let opened := inner.diskCached (some entry.directory) { host := 0 }
  have hfound : (run entry.directory { world := { host := 0 } } [.attach 3 inner]).layers[0]? =
      some (3, opened.1) := rfl
  have hread : ⟨0, 3, [0, 0, 0]⟩ ∈ opened.1.innerReads 0 3 opened.2 := by decide +kernel
  have hstorable : Storable 3 0 := by decide
  have hdelivers : SourceRead.Delivers ⟨0, 3, [0, 0, 0]⟩ 3 0 := by decide
  have hrun := stored_block_run (fun _ => True) trivial hnew hopens (by decide) (by decide)
    hstorable [.attach 3 inner] [.close 0, .attach 3 inner]
    (List.forall_mem_singleton.mpr hinner)
    (List.forall_mem_cons.mpr ⟨trivial, List.forall_mem_singleton.mpr hinner⟩)
    hfound hread hdelivers
  refine ⟨by decide +kernel, by decide +kernel, hrun.1, fun reader hreader => ?_⟩
  exact ((hrun.2 reader hreader 1 2).2.2 ⟨by decide, by decide⟩)

end EntryUsers

end PspBoot
