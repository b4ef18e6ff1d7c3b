import PspBoot.Proofs.BlockStore.Neighbours
import PspBoot.Proofs.Chain.Custody

/-!
# Layers of different paths in one cache directory

Disk cached layers for any number of paths, each with a content of its own, are open in one cache
directory.  Entries of different digests have nothing to do with each other, but paths of one digest
have one entry.  A store that is opened while none is open takes nothing over from another path.
One that is open already is shared, whatever path it was opened for.

The main statement says when every layer reads the content of its own path all the same: no layer may
be opened while a store of its entry is open for the same size and for a path whose content differs
where blocks can be stored.  If one is, two reads of one byte show it: after the first one, through a
layer that was there before, the second one finds the byte of the other content.  It cannot happen
where the paths have different digests (`isolated_of_digests`).
-/

namespace PspBoot

open BlockStore

variable {η : Type}

/-- The open store is one for a path and a size, and lists some blocks. -/
def Ledger.OpenFor (ledger : Ledger) (path : String) (size : Nat) (listed : BlockSet → Prop) :
    Prop :=
  ∃ store, ledger.store? = some store ∧ store.path = path ∧ store.size = size ∧ listed store.filled

namespace DiskCache

variable {σ : Type} {entry : CacheEntry} {contents : String → Nat → Bytes}
  {known : String → Nat → Prop} {content : Bytes} {inner : Source (σ × World η)}
  {V : σ × η → Prop} {s : σ × World η} {path : String} {index offset : Nat}
  {listed : BlockSet → Prop}

theorem exists_store_of_openFor {size : Nat}
    (h : s.2.storage.Kept entry fun ledger =>
      ledger.Traced contents known ∧ ledger.OpenFor path size listed) :
    ∃ store, s.2.storage.store? entry.key = some store ∧ store.grid = gridFor size := by
  obtain ⟨home, ledger, hkeeps, -, store, hopen, -, hsize, -⟩ := h
  exact ⟨store, hkeeps.store_eq.trans hopen, congrArg gridFor hsize⟩

/-- A layer that reads a byte leaves the block of it listed, if it agrees with the store on what the
block is. -/
theorem readAt_lists (h : ShowsAside inner content content.length V fun _ => False)
    (hV : V (aside.get s)) {size : Nat} (hcontent : content.length = size)
    (hopen : s.2.storage.Kept entry fun ledger =>
      ledger.Traced contents known ∧ ledger.OpenFor path size fun _ => True)
    (hlength : ∀ path size, known path size → (contents path size).length = size)
    (hagree : (gridFor size).blockOf content index = (gridFor size).blockOf (contents path size) index)
    (hstorable : Storable size index) (hcovers : (gridFor size).Covers index offset) :
    let t := (readAt (some entry.key) inner offset 1 s).2
    t.2.storage.Kept entry fun ledger =>
      ledger.Traced contents known ∧ ledger.OpenFor path size (index ∈ ·) := by
  subst hcontent
  obtain ⟨store, hstore, hgrid⟩ := exists_store_of_openFor hopen
  have hrun := run_readAt_one inner hstore hgrid hcovers
  intro t
  have ht : t = (fetch entry.key inner (gridFor content.length) index s).2 := by
    simp only [t, hrun]
  rw [ht]
  obtain ⟨home, ledger, hkeeps, htraced, held, hheld, hpath, hsize, -⟩ := hopen
  obtain ⟨hfound, hloaded, -⟩ := hkeeps.loadBlock index
  have hload := htraced.loadBlock_eq hheld index
  rw [hload] at hfound hloaded
  by_cases hlisted : index ∈ held.filled
  · rw [if_pos hlisted] at hfound
    rw [run_fetch_of_some hfound]
    exact ⟨home, ledger, hloaded, htraced, held, hheld, hpath, hsize, hlisted⟩
  · rw [if_neg hlisted] at hfound
    obtain ⟨-, hstored⟩ := fetch_of_none h hV hfound
    rw [hstored]
    have hwidth : (blockOf content index).length = (gridFor held.size).width index := by
      rw [hsize]
      exact length_blockOf content index
    have hgenuine : Ledger.Genuine contents held.path held.size index (blockOf content index) := by
      intro _
      rw [hpath, hsize]
      exact hagree
    refine ⟨home, _, (hloaded.saveBlock index _).1,
      htraced.saveBlock hlength hheld hwidth hgenuine, ?_⟩
    rw [Ledger.saveBlock_of_storable hheld rfl hwidth (hsize.symm ▸ hstorable)]
    exact ⟨_, rfl, hpath, hsize, BlockSet.mem_insert.mpr (.inl rfl)⟩

/-- Whoever reads a byte of a listed block gets that of the store's own content. -/
theorem readAt_listed (inner : Source (σ × World η)) {size : Nat} {byte : UInt8}
    (hopen : s.2.storage.Kept entry fun ledger =>
      ledger.Traced contents known ∧ ledger.OpenFor path size (index ∈ ·))
    (hcovers : (gridFor size).Covers index offset)
    (hbyte : (contents path size)[offset]? = some byte) :
    (readAt (some entry.key) inner offset 1 s).1 = [byte] := by
  obtain ⟨store, hstore, hgrid⟩ := exists_store_of_openFor hopen
  obtain ⟨home, ledger, hkeeps, htraced, held, hheld, hpath, hsize, hlisted⟩ := hopen
  have hload := htraced.loadBlock_eq hheld index
  have hfound := (hkeeps.loadBlock index).1
  rw [hload, if_pos hlisted, hpath, hsize] at hfound
  rw [run_readAt_one inner hstore hgrid hcovers, run_fetch_of_some hfound]
  apply BlockGrid.part_one hcovers.1
  rw [BlockGrid.getElem?_blockOf, if_pos, Nat.add_sub_cancel' hcovers.1]
  · exact hbyte
  · exact Nat.sub_lt_left_of_lt_add hcovers.1 hcovers.2

end DiskCache

/-- A disk cache around a chain that always shows the content of its path. -/
inductive Showing (contents : String → Bytes) (J : η → Prop) : Layer η → Prop
  | around {key : Option FilePath.Key} {chain : Chain η} {P : chain.State → Prop}
      {state : chain.State}
      (h : chain.Faultless chain.locator.path (contents chain.locator.path) P J) (hstate : P state) :
      Showing contents J ⟨.diskCached key chain, state⟩

namespace EntryUsers

variable {directory : String} {paths : String → Prop} {contents : String → Bytes} {J : η → Prop}
  {users : EntryUsers η} {size index : Nat} {layer inner : Layer η}

/-- What a step asks of the layer that it brings in: it never fails to show the content of its
path. -/
def Brings (paths : String → Prop) (contents : String → Bytes) (J : η → Prop) :
    EntryStep η → Prop
  | .attach size inner =>
      paths inner.locator.path ∧ (contents inner.locator.path).length = size ∧
        inner.Faultless inner.locator.path (contents inner.locator.path) J
  | _ => True

/-- The layer may fail, but what it shows is right. -/
def Truthful (paths : String → Prop) (contents : String → Bytes) (J : η → Prop) :
    EntryStep η → Prop
  | .attach size inner =>
      paths inner.locator.path ∧ (contents inner.locator.path).length = size ∧
        inner.Trusted inner.locator.path (contents inner.locator.path) J
  | _ => True

theorem Brings.truthful {next : EntryStep η} (h : Brings paths contents J next) :
    Truthful paths contents J next := by
  cases next with
  | attach size inner =>
    obtain ⟨hpath, hlength, P, hchain, hstate⟩ := h
    exact ⟨hpath, hlength, P, hchain.trusted, hstate⟩
  | ask | saveSidecar | close => trivial

/-- A layer that is opened meets no store of its entry and its size for a path whose content differs
in a block that can be stored. -/
def Compatible (directory : String) (contents : String → Bytes) (users : EntryUsers η) :
    EntryStep η → Prop
  | .attach size inner =>
      ∀ store, users.world.storage.store?
          (CacheEntry.key { directory, path := inner.locator.path }) = some store →
        store.size = size → ∀ index, Storable size index →
          (gridFor size).blockOf (contents inner.locator.path) index =
            (gridFor size).blockOf (contents store.path) index
  | _ => True

/-- Whatever open layers are asked from now on, each of them reads the content of its own path. -/
def Isolated (directory : String) (contents : String → Bytes) (users : EntryUsers η) : Prop :=
  ∀ asks : List (Nat × Call),
    let later := users.run directory (asks.map fun ask => .ask ask.1 ask.2)
    ∀ reader ∈ later.layers, ∀ offset len,
      (reader.2.readAt offset len later.world).1.1 =
        Bytes.slice (contents reader.2.locator.path) offset len

theorem Isolated.readAt_eq (h : Isolated directory contents users)
    (hmem : (size, layer) ∈ users.layers) (offset len : Nat) :
    (layer.readAt offset len users.world).1.1 =
      Bytes.slice (contents layer.locator.path) offset len :=
  h [] _ hmem offset len

theorem Isolated.readAt_ask_eq (h : Isolated directory contents users) {user told : Nat}
    {asked : Layer η} (hfound : users.layers[user]? = some (told, asked)) (call : Call)
    (hmem : (size, layer) ∈ users.layers.set user (told, (asked.ask call users.world).1.2))
    (offset len : Nat) :
    (layer.readAt offset len (asked.ask call users.world).2).1.1 =
      Bytes.slice (contents layer.locator.path) offset len := by
  have hread := h [(user, call)]
  dsimp only at hread
  rw [List.map_singleton, EntryUsers.run, List.foldl_cons, List.foldl_nil, EntryUsers.step,
    hfound] at hread
  exact hread _ hmem offset len

/-! ### What is kept -/

/-- The sizes of the contents of some paths. -/
def Measured (paths : String → Prop) (contents : String → Bytes) (path : String) (size : Nat) :
    Prop :=
  paths path ∧ (contents path).length = size

/-- The entries of some paths in a cache directory. -/
def EntryOf (directory : String) (paths : String → Prop) (entry : CacheEntry) : Prop :=
  entry.directory = directory ∧ paths entry.path

/-- What is kept of all these entries: each has its place, and its store is open for one of the
paths of its digest. -/
def KeepsTraces (directory : String) (paths : String → Prop) (contents : String → Bytes)
    (storage : Storage) : Prop :=
  storage.Tended (EntryOf directory paths)
      (Ledger.Traced (fun path _ => contents path) (Measured paths contents)) ∧
    storage.Addressed directory (Ours directory (Measured paths contents))

theorem upkeep_keepsTraces (directory : String) (paths : String → Prop)
    (contents : String → Bytes) :
    Storage.Upkeep (KeepsTraces directory paths contents) directory (Measured paths contents)
      (Ledger.Genuine fun path _ => contents path) :=
  (Storage.upkeep_tended (Ledger.Traced.stable directory fun _ _ h => h.2)
    (fun _ hlabel hstore => .of_blank hlabel hstore) (fun _ h => h.1) fun _ _ h => ⟨rfl, h.1⟩).and
      (Storage.upkeep_addressed directory _ _ _)

/-- There are no traces where nothing has been kept yet. -/
theorem keepsTraces_of_untouched {storage : Storage}
    (hnew : ∀ path, paths path → storage.Untouched { directory, path }) :
    KeepsTraces directory paths contents storage := by
  constructor
  · left
    rintro ⟨_, path⟩ ⟨rfl, hpath⟩
    exact hnew path hpath
  · rintro key ⟨path, size, ⟨hpath, -⟩, rfl⟩ lease hlease
    rw [Storage.lease?, (hnew path hpath).closed] at hlease
    cases hlease

/-- A program may end as long as no open store has a block that its sidecar does not list. -/
theorem keepsTraces_forget {storage : Storage} (h : KeepsTraces directory paths contents storage)
    (hsaved : ∀ path, paths path → ∀ store,
      storage.store? (CacheEntry.key { directory, path }) = some store → store.unsaved = false) :
    KeepsTraces directory paths contents { storage with stores := [] } := by
  constructor
  · apply h.1.forget
    rintro ⟨_, path⟩ ⟨rfl, hpath⟩ ledger hledger htraced
    exact htraced.close fun store hstore => hsaved path hpath store (hledger.trans hstore)
  · intro key _ lease hlease
    cases hlease

/-- A cache directory with traces is in custody as long as nobody uses it. -/
theorem custody_nobody {start : World η} (hhost : J start.host)
    (hkept : KeepsTraces directory paths contents start.storage)
    (hclosed : ∀ path, paths path →
      start.storage.store? (CacheEntry.key { directory, path }) = none) :
    Custody (KeepsTraces directory paths contents) directory (Measured paths contents)
      (Ledger.Genuine fun path _ => contents path) J { world := start } := by
  apply Custody.nobody hhost hkept
  rintro key ⟨path, size, ⟨hpath, -⟩, rfl⟩
  exact hclosed path hpath

/-- What holds at any time of layers that read the content of their own path. -/
structure Showings (directory : String) (paths : String → Prop) (contents : String → Bytes)
    (J : η → Prop) (users : EntryUsers η) : Prop where
  custody : Custody (KeepsTraces directory paths contents) directory (Measured paths contents)
    (Ledger.Genuine fun path _ => contents path) J users
  showing : ∀ user ∈ users.layers, Showing contents J user.2

/-- A layer of the right content may be attached if it is compatible. -/
theorem admitted_of_compatible {next : EntryStep η} (hnext : Truthful paths contents J next)
    (hcompatible : Compatible directory contents users next) :
    Admitted directory (Measured paths contents) (Ledger.Genuine fun path _ => contents path) J users
      next := by
  cases next with
  | attach size inner =>
    obtain ⟨hpath, rfl, htrusted⟩ := hnext
    refine ⟨⟨hpath, rfl⟩, htrusted.cacheable _ fun index _ => rfl, fun lease hlease hsize =>
      ⟨hsize, ?_⟩⟩
    intro index block hgenuine
    obtain ⟨store, hopen, rfl⟩ := Storage.exists_store_of_lease? hlease
    have hsame := hcompatible store hopen hsize index
    rw [Ledger.Genuine] at hgenuine ⊢
    exact fun hstorable => (hgenuine hstorable).trans (hsame hstorable)
  | ask | saveSidecar | close => trivial

/-- A store that suits a layer has the blocks of its content. -/
theorem blockOf_eq_of_suits {lease : Lease} {path : String}
    (h : lease.Suits (Ledger.Genuine fun path _ => contents path) path size)
    (hstorable : Storable size index) :
    (gridFor size).blockOf (contents path) index =
      (gridFor size).blockOf (contents lease.path) index := by
  exact h.2 index ((gridFor size).blockOf (contents path) index) (fun _ => rfl) hstorable

/-- A store that suits a layer serves it, where at least the traces are kept up. -/
theorem serves_of_suits {kept : Storage → Prop} {path : String}
    {leases : FilePath.Key → Option Lease} {lease : Lease}
    (hupkeep : Storage.Upkeep kept directory (Measured paths contents)
      (Ledger.Genuine fun path _ => contents path))
    (htraces : ∀ storage, kept storage → KeepsTraces directory paths contents storage)
    (hpath : paths path)
    (hlease : leases (CacheEntry.key { directory, path }) = some lease)
    (hsuits : lease.Suits (Ledger.Genuine fun path _ => contents path) path
      (contents path).length) :
    DiskCache.Serves (fun storage => kept storage ∧ storage.lease? = leases)
      (CacheEntry.key { directory, path }) (contents path) := by
  have hknown : Measured paths contents path (contents path).length := ⟨hpath, rfl⟩
  have hstore {storage : Storage} (h : kept storage ∧ storage.lease? = leases) :
      ∃ store, storage.store? (CacheEntry.key { directory, path }) = some store ∧
        store.lease = lease :=
    Storage.exists_store_of_lease? (h.2 ▸ hlease)
  constructor
  case exists_store =>
    intro storage h
    obtain ⟨store, hopen, rfl⟩ := hstore h
    exact ⟨store, hopen, hsuits.1⟩
  case loadBlock =>
    intro storage index h
    refine ⟨⟨hupkeep.loadBlock h.1 hknown index, ?_⟩, ?_⟩
    · rw [Storage.lease?_loadBlock]
      exact h.2
    · intro data hdata
      obtain ⟨store, hopen, rfl⟩ := hstore h
      obtain ⟨home, ledger, hkeeps, htraced⟩ := (htraces storage h.1).1.kept ⟨rfl, hpath⟩ hopen
      have hheld := hkeeps.store_eq.symm.trans hopen
      have hfound := (hkeeps.loadBlock index).1.symm.trans hdata
      rw [htraced.loadBlock_eq hheld] at hfound
      split at hfound
      · next hlisted =>
        have hstorable := (htraced.filled store hheld index hlisted).has.1
        have hsize : store.size = (contents path).length := hsuits.1
        rw [hsize] at hstorable hfound
        rw [← Option.some.inj hfound]
        exact (blockOf_eq_of_suits hsuits hstorable).symm
      · cases hfound
  case saveBlock =>
    intro storage index h hinside hfree
    obtain ⟨store, hopen, rfl⟩ := hstore h
    have hsize : store.size = (contents path).length := hsuits.1
    have hgrid : store.grid = gridOf (contents path) := by
      rw [grid_eq, hsize]
      rfl
    constructor
    · apply hupkeep.saveBlock h.1 hknown hopen
      · rw [hgrid, hsize]
        exact hinside
      · exact hfree store hopen
      · rw [hgrid]
        exact length_blockOf _ index
      · rw [hsize]
        exact hsuits.2 index _ fun _ => rfl
    · rw [Storage.lease?_saveBlock]
      exact h.2

namespace Showings

/-- A new layer shows the content of its path. -/
theorem attach (h : Showings directory paths contents J users)
    (hinner : Brings paths contents J (.attach size inner)) :
    Showing contents J (inner.diskCached (some directory) users.world).1 := by
  obtain ⟨-, -, P, hchain, hstate⟩ := hinner
  have hcacheable := hchain.shows.faithful.cacheable (fun _ _ => True) fun _ => trivial
  have hV : P inner.state ∧ J users.world.host := ⟨hstate, h.custody.host⟩
  exact .around hchain (hcacheable.openStore (s := (inner.state, users.world)) hV directory).1.1

/-- So does one that is asked. -/
theorem ask_layer (h : Showings directory paths contents J users)
    (hmem : (size, layer) ∈ users.layers) (call : Call) :
    Showing contents J (layer.ask call users.world).1.2 := by
  obtain ⟨-, rfl⟩ : Measured paths contents layer.locator.path size := h.custody.told _ hmem
  obtain ⟨hchain, hstate⟩ := h.showing _ hmem
  have hcacheable := hchain.shows.faithful.cacheable
    (Ledger.Genuine (fun path _ => contents path) _ _) fun index _ => rfl
  exact .around hchain (h.custody.ask_chain (upkeep_keepsTraces directory paths contents) hmem
    hcacheable hstate call).1.1

/-- **Every step keeps all layers showing the content of their path**, if a layer that is opened is
compatible with the store that it finds. -/
theorem step (h : Showings directory paths contents J users) (next : EntryStep η)
    (hnext : Brings paths contents J next)
    (hcompatible : Compatible directory contents users next) :
    Showings directory paths contents J (users.step directory next) where
  custody := h.custody.step (upkeep_keepsTraces directory paths contents) next
    (admitted_of_compatible hnext.truthful hcompatible)
  showing := by
    apply step_forall_layers h.showing
    case hattach =>
      rintro size inner rfl
      exact h.attach hnext
    case hask => exact fun call size layer hmem => h.ask_layer hmem call

/-- So does a run. -/
theorem run (h : Showings directory paths contents J users) (steps : List (EntryStep η))
    (hsteps : ∀ next ∈ steps, Brings paths contents J next)
    (hcompatible : ∀ before next, before ++ [next] <+: steps →
      Compatible directory contents (users.run directory before) next) :
    Showings directory paths contents J (users.run directory steps) := by
  induction steps generalizing users with
  | nil => exact h
  | cons next steps ih =>
    have hfirst := h.step next (hsteps next List.mem_cons_self)
      (hcompatible [] next (List.prefix_append [next] steps))
    apply ih hfirst fun other hother => hsteps other (List.mem_cons_of_mem _ hother)
    intro before later hlater
    exact hcompatible (next :: before) later (List.cons_prefix_cons.mpr ⟨rfl, hlater⟩)

/-- Each of them reads the content of its path. -/
theorem readAt_eq (h : Showings directory paths contents J users)
    (hmem : (size, layer) ∈ users.layers) (offset len : Nat) :
    (layer.readAt offset len users.world).1.1 =
      Bytes.slice (contents layer.locator.path) offset len := by
  obtain ⟨hpath, rfl⟩ : Measured paths contents layer.locator.path size := h.custody.told _ hmem
  have hlease {key : FilePath.Key} (huses : layer.storeKey? = some key) :=
    h.custody.exists_lease hmem huses
  have hattached := h.custody.attached _ hmem
  obtain ⟨hchain, hstate⟩ := h.showing _ hmem
  rename_i key chain P state
  have hV : P state ∧ J users.world.host := ⟨hstate, h.custody.host⟩
  have hlength : (Bytes.slice (contents chain.locator.path) offset len).length ≤
      (contents chain.locator.path).length := by
    rw [Bytes.length_slice]
    exact Nat.le_trans (Nat.min_le_right _ _) (Nat.sub_le _ _)
  obtain ⟨hkey, -, -⟩ := hattached
  rcases hkey with rfl | rfl
  · have hread := (DiskCache.shows_none (P := fun _ => True) hchain.shows).readAt offset len
      (state, users.world) ⟨hV, trivial⟩
    exact (hread.post.eq_or hlength).resolve_right id
  · obtain ⟨lease, hopen, hsuits⟩ := hlease rfl
    have hserves := serves_of_suits (upkeep_keepsTraces directory paths contents)
      (fun _ hkept => hkept) hpath hopen hsuits
    have hread := (DiskCache.shows hchain.shows hserves (Nat.min_le_right _ _)).readAt offset len
      (state, users.world) ⟨hV, h.custody.kept, rfl⟩
    exact (hread.post.eq_or hlength).resolve_right id

theorem isolated (h : Showings directory paths contents J users) :
    Isolated directory contents users := by
  intro asks later reader hreader offset len
  have hlater : Showings directory paths contents J later := by
    have hasks {next : EntryStep η} (hnext : next ∈ asks.map fun ask => EntryStep.ask ask.1 ask.2) :
        ∃ user call, next = .ask user call := by
      obtain ⟨ask, -, rfl⟩ := List.mem_map.mp hnext
      exact ⟨_, _, rfl⟩
    apply h.run
    · intro next hnext
      obtain ⟨user, call, rfl⟩ := hasks hnext
      trivial
    · intro before next hbegins
      obtain ⟨user, call, rfl⟩ := hasks (hbegins.subset (List.mem_append_right _ List.mem_cons_self))
      trivial
  exact hlater.readAt_eq hreader offset len

/-! ### Stores of another content -/

/-- An open store is one for a path of ours. -/
theorem measured (h : Showings directory paths contents J users) {path : String} (hpath : paths path)
    {store : BlockStore}
    (hopen : users.world.storage.store? (CacheEntry.key { directory, path }) = some store) :
    Measured paths contents store.path store.size := by
  obtain ⟨home, ledger, hkeeps, htraced⟩ := h.custody.kept.1.kept ⟨rfl, hpath⟩ hopen
  exact htraced.store_known store (hkeeps.store_eq.symm.trans hopen)

/-- A layer that is opened shares the store of its entry, if it is open for the same size. -/
theorem attach_shared (h : Showings directory paths contents J users)
    (hinner : Brings paths contents J (.attach size inner)) {entry : CacheEntry}
    (hentry : { directory, path := inner.locator.path } = entry) {store : BlockStore}
    (hopen : users.world.storage.store? entry.key = some store) (hsize : store.size = size)
    (hsome : size ≠ 0) :
    let shared := users.step directory (.attach size inner)
    ∃ state, shared.layers =
        users.layers ++ [(size, ⟨.diskCached (some entry.key) inner.chain, state⟩)] ∧
      J shared.world.host ∧ shared.world.storage.Kept entry fun ledger =>
        ledger.Traced (fun path _ => contents path) (Measured paths contents) ∧
          ledger.OpenFor store.path size fun _ => True := by
  obtain ⟨hpath, rfl, P, hchain, hstate⟩ := hinner
  have hown : EntryOf directory paths entry := hentry ▸ ⟨rfl, hpath⟩
  have hlocator : inner.locator.path = entry.path := congrArg CacheEntry.path hentry
  obtain ⟨home, ledger, hkeeps, htraced⟩ := h.custody.kept.1.kept hown hopen
  -- On the ledger the store only gets one more holder.
  have hshared : ledger.openStore entry (contents inner.locator.path).length =
      (some entry.key, { ledger with store? := some { store with holders := store.holders + 1 } }) := by
    rw [Ledger.openStore, hkeeps.store_eq.symm.trans hopen]
    dsimp only
    rw [if_pos hsize]
  have hknown : Measured paths contents entry.path (contents inner.locator.path).length :=
    hlocator ▸ ⟨hpath, rfl⟩
  have htold := htraced.openStore hknown
  obtain ⟨hkey, hkept, -⟩ := hkeeps.openStore (contents inner.locator.path).length
  rw [hshared] at htold hkey hkept
  have hV : P inner.state ∧ J users.world.host := ⟨hstate, h.custody.host⟩
  have hcacheable := hchain.shows.faithful.cacheable (fun _ _ => True) fun _ => trivial
  have hvalid := (hcacheable.openStore (s := (inner.state, users.world)) hV entry.directory).1
  have hopened := DiskCache.openStore_of_shows entry (inner.state, users.world) hchain.shows
    ((congrArg Locator.path inner.chain.locator_source).trans hlocator) hsome hV
  change ∃ state, users.layers ++ [((contents inner.locator.path).length,
    (inner.diskCached (some directory) users.world).1)] = _ ∧
      J (inner.diskCached (some directory) users.world).2.host ∧
        (inner.diskCached (some directory) users.world).2.storage.Kept entry _
  have hdirectory : directory = entry.directory := congrArg CacheEntry.directory hentry
  rw [hdirectory, Layer.run_diskCached]
  generalize DiskCache.openStore entry.directory inner.chain.source (inner.state, users.world) = result
    at hvalid hopened
  obtain ⟨key, state, world⟩ := result
  obtain rfl : key = some entry.key := (congrArg Prod.fst hopened).trans hkey
  have hstorage : world.storage = _ := congrArg Prod.snd hopened
  refine ⟨state, rfl, hvalid.2, home, _, hstorage ▸ hkept, htold, _, rfl, rfl, hsize, trivial⟩

/-- Where different paths have different digests, no layer finds a store of another path. -/
theorem compatible_of_digests (h : Showings directory paths contents J users)
    (hdigests : ∀ path path', paths path → paths path' → Digest.render path = Digest.render path' →
      path = path')
    {next : EntryStep η} (hnext : Brings paths contents J next) :
    Compatible directory contents users next := by
  cases next with
  | attach size inner =>
    intro store hopen hsize index hstorable
    have hours : Ours directory (Measured paths contents)
        (CacheEntry.key { directory, path := inner.locator.path }) :=
      ⟨_, _, ⟨hnext.1, hnext.2.1⟩, rfl⟩
    have hkey := h.custody.kept.2 _ hours _ (Storage.lease?_eq hopen)
    have hdigest := CacheEntry.digest_eq_of_key_eq hkey rfl
    rw [hdigests store.path _ (h.measured hnext.1 hopen).1 hnext.1 hdigest]
  | ask | saveSidecar | close => trivial

/-- An open store has a user, which agrees with it on the blocks that can be stored. -/
theorem exists_user_of_store (h : Showings directory paths contents J users) {entry : CacheEntry}
    (hentry : EntryOf directory paths entry) {store : BlockStore}
    (hopen : users.world.storage.store? entry.key = some store) :
    ∃ (user : Nat) (chain : Chain η) (P : chain.State → Prop) (state : chain.State),
      users.layers[user]? = some (store.size, ⟨.diskCached (some entry.key) chain, state⟩) ∧
        chain.Faultless chain.locator.path (contents chain.locator.path) P J ∧ P state ∧
          (contents chain.locator.path).length = store.size ∧
            ∀ index, Storable store.size index →
              (gridFor store.size).blockOf (contents chain.locator.path) index =
                (gridFor store.size).blockOf (contents store.path) index := by
  have hours : Ours directory (Measured paths contents) entry.key := by
    obtain ⟨rfl, hpath⟩ := hentry
    exact ⟨entry.path, _, ⟨hpath, rfl⟩, rfl⟩
  have hlease := Storage.lease?_eq hopen
  obtain ⟨user, told, layer, hfound, huses⟩ := h.custody.exists_user hours hlease
  have hmem := List.mem_of_getElem? hfound
  have hlength := (h.custody.told _ hmem).2
  have hsuits := h.custody.suited _ hmem _ _ huses hlease
  obtain rfl : store.size = told := hsuits.1
  obtain ⟨hchain, hstate⟩ := h.showing _ hmem
  rename_i key chain P state
  obtain rfl : key = some entry.key := huses
  exact ⟨user, chain, P, state, hfound, hchain, hstate, hlength,
    fun index hstorable => blockOf_eq_of_suits hsuits hstorable⟩

/-- A layer that shares a store of another content spoils the isolation.  Somebody uses the store
already; a byte that it reads is stored, and then the new layer reads the same byte. -/
theorem not_isolated (h : Showings directory paths contents J users)
    (hinner : Brings paths contents J (.attach size inner)) {store : BlockStore}
    (hopen : users.world.storage.store?
      (CacheEntry.key { directory, path := inner.locator.path }) = some store)
    (hsize : store.size = size) (hstorable : Storable size index)
    (hdiffer : (gridFor size).blockOf (contents inner.locator.path) index ≠
      (gridFor size).blockOf (contents store.path) index) :
    ¬Isolated directory contents (users.step directory (.attach size inner)) := by
  subst hsize
  obtain ⟨offset, hcovers, hbytes⟩ := BlockGrid.exists_ne_of_blockOf_ne hdiffer
  have hstored := h.measured hinner.1 hopen
  obtain ⟨byte, hbyte⟩ : ∃ byte, (contents store.path)[offset]? = some byte := by
    have hinside : offset < (contents store.path).length := hstored.2 ▸ hcovers.lt_total
    exact ⟨_, List.getElem?_eq_getElem hinside⟩
  obtain ⟨entry, hentry⟩ :
      ∃ entry, CacheEntry.mk directory inner.locator.path = entry := ⟨_, rfl⟩
  rw [hentry] at hopen
  obtain ⟨user, chain, P, state, hfound, hchain, hstate, hlength, hagree⟩ :=
    h.exists_user_of_store (hentry ▸ ⟨rfl, hinner.1⟩) hopen
  obtain ⟨own, hlayers, hhost, hshared⟩ :=
    h.attach_shared hinner hentry hopen rfl (Nat.ne_zero_of_lt hcovers.lt_total)
  intro hisolated
  generalize users.step directory (.attach store.size inner) = shared
    at hlayers hhost hshared hisolated
  have hlists := DiskCache.readAt_lists hchain.shows (s := (state, shared.world)) ⟨hstate, hhost⟩
    hlength hshared (fun _ _ hknown => hknown.2) (hagree index hstorable) hstorable hcovers
  have hwrong := DiskCache.readAt_listed inner.chain.source (s := (own, _)) hlists hcovers hbyte
  -- The user is asked for the byte, and the layer behind all others reads it then.
  have hinside : user < users.layers.length := (List.getElem?_eq_some_iff.mp hfound).1
  have hthere : shared.layers[user]? = users.layers[user]? := by
    rw [hlayers, List.getElem?_append_left hinside]
  have hlast (asked : Nat × Layer η) : (store.size, ⟨.diskCached (some entry.key) inner.chain, own⟩) ∈
      shared.layers.set user asked := by
    rw [hlayers, List.set_append_left _ _ hinside]
    exact List.mem_append_right _ (List.mem_singleton_self _)
  have hright := hisolated.readAt_ask_eq (hthere.trans hfound) (.readAt offset 1) (hlast _) offset 1
  have hsame : [byte] = Bytes.slice (contents inner.locator.path) offset 1 :=
    hwrong.symm.trans hright
  have hfirst := congrArg (·[0]?) hsame
  rw [Bytes.getElem?_slice, if_pos Nat.one_pos] at hfirst
  exact hbytes (hfirst.symm.trans hbyte.symm)

/-- Where layers stay isolated, every layer that is opened is compatible. -/
theorem compatible_of_isolated (h : Showings directory paths contents J users)
    (steps : List (EntryStep η)) (hsteps : ∀ next ∈ steps, Brings paths contents J next)
    (hisolated : ∀ before, before <+: steps → Isolated directory contents (users.run directory before)) :
    ∀ before next, before ++ [next] <+: steps →
      Compatible directory contents (users.run directory before) next := by
  induction steps generalizing users with
  | nil => exact fun before next hbegins => absurd (List.prefix_nil.mp hbegins) (by simp)
  | cons first steps ih =>
    have hbrings := hsteps first List.mem_cons_self
    have hfirst : Compatible directory contents users first := by
      cases first with
      | attach size inner =>
        intro store hopen hsize index hstorable
        apply Classical.byContradiction
        intro hdiffer
        exact h.not_isolated hbrings hopen hsize hstorable hdiffer
          (hisolated [.attach size inner] (List.prefix_append [_] steps))
      | ask | saveSidecar | close => trivial
    intro before next hbegins
    cases before with
    | nil =>
      obtain rfl := (List.cons_prefix_cons.mp hbegins).1
      exact hfirst
    | cons other before =>
      obtain ⟨rfl, hlater⟩ := List.cons_prefix_cons.mp hbegins
      apply ih (h.step _ hbrings hfirst) (fun next hnext => hsteps next (List.mem_cons_of_mem _ hnext))
      · intro earlier hearlier
        exact hisolated (other :: earlier) (List.cons_prefix_cons.mpr ⟨rfl, hearlier⟩)
      · exact hlater

/-- Nobody shows anything as long as no layer is open. -/
theorem nobody {start : World η} (hhost : J start.host)
    (hnew : ∀ path, paths path → start.storage.Untouched { directory, path }) :
    Showings directory paths contents J { world := start } where
  custody := custody_nobody hhost (keepsTraces_of_untouched hnew) fun path hpath =>
    (hnew path hpath).closed
  showing user hmem := by cases hmem

end Showings

/-- **When layers of different paths stay isolated.**  In a cache directory in which nothing has been
kept yet for some paths, layers over the contents of these paths are opened, asked, saved and closed in
any order.  At all times all of them read the content of their own path, whatever they are asked, if
and only if no layer is opened while a store of its entry is open for the same size and for a path
whose content differs in a block that can be stored. -/
theorem isolated_run_iff (directory : String) (paths : String → Prop) (contents : String → Bytes)
    (J : η → Prop) {start : World η} (hhost : J start.host)
    (hnew : ∀ path, paths path → start.storage.Untouched { directory, path })
    (steps : List (EntryStep η)) (hsteps : ∀ next ∈ steps, Brings paths contents J next) :
    (∀ before, before <+: steps →
        Isolated directory contents (run directory { world := start } before)) ↔
      ∀ before next, before ++ [next] <+: steps →
        Compatible directory contents (run directory { world := start } before) next := by
  have hnobody : Showings directory paths contents J { world := start } := .nobody hhost hnew
  constructor
  · exact hnobody.compatible_of_isolated steps hsteps
  · intro hcompatible before hbegins
    have hshowings := hnobody.run before (fun next hnext => hsteps next (hbegins.subset hnext))
      fun earlier next hearlier => hcompatible earlier next (hearlier.trans hbegins)
    exact hshowings.isolated

/-- **Layers of paths with different digests are always isolated.** -/
theorem isolated_of_digests (J : η → Prop) {start : World η} (hhost : J start.host)
    (hnew : ∀ path, paths path → start.storage.Untouched { directory, path })
    (hdigests : ∀ path path', paths path → paths path' → Digest.render path = Digest.render path' →
      path = path')
    (steps : List (EntryStep η)) (hsteps : ∀ next ∈ steps, Brings paths contents J next) :
    Isolated directory contents (run directory { world := start } steps) := by
  have hnobody : Showings directory paths contents J { world := start } := .nobody hhost hnew
  suffices hshowings : ∀ users, Showings directory paths contents J users →
      Showings directory paths contents J (users.run directory steps) from
    (hshowings _ hnobody).isolated
  clear hnobody
  induction steps with
  | nil => exact fun users h => h
  | cons next steps ih =>
    intro users h
    have hbrings := hsteps next List.mem_cons_self
    have hfirst := h.step next hbrings (h.compatible_of_digests hdigests hbrings)
    exact ih (fun other hother => hsteps other (List.mem_cons_of_mem _ hother)) _ hfirst

/-! ### Two paths of one digest -/

/-- Two paths that have one entry. -/
def rivals : String × String :=
  ("http://game/ffxdpaaaaaaapaaaaaaa", "http://game/ffxd80a1tbyu80a1tbyu")

/-- A content for each of them. -/
def rivalContents (path : String) : Bytes :=
  if path = rivals.1 then [1, 2, 3] else [4, 5, 6]

/-- A layer for one of them. -/
def rival (path : String) : Layer Unit :=
  .supplied (.ofContent (.ofPath path) (rivalContents path))

theorem untouched_rivals (path : String) (hpath : path = rivals.1 ∨ path = rivals.2) :
    ({} : Storage).Untouched { directory := "cache", path } := by
  rcases hpath with rfl | rfl
  · exact ⟨rfl, by decide +kernel, by decide +kernel⟩
  · exact ⟨rfl, by decide +kernel, by decide +kernel⟩

theorem brings_rival (path : String) (hpath : path = rivals.1 ∨ path = rivals.2) :
    Brings (fun path => path = rivals.1 ∨ path = rivals.2) rivalContents (fun _ => True)
      (.attach 3 (rival path)) := by
  refine ⟨hpath, ?_, Layer.faultless_supplied (Source.shows_ofContent _ _ _)⟩
  rcases hpath with rfl | rfl
  · decide +kernel
  · decide +kernel

theorem brings_rivals {steps : List (EntryStep Unit)}
    (hsteps : ∀ next ∈ steps, (∀ size inner, next ≠ .attach size inner) ∨
      next = .attach 3 (rival rivals.1) ∨ next = .attach 3 (rival rivals.2)) :
    ∀ next ∈ steps, Brings (fun path => path = rivals.1 ∨ path = rivals.2) rivalContents
      (fun _ => True) next := by
  intro next hnext
  rcases hsteps next hnext with hother | rfl | rfl
  · cases next with
    | attach size inner => exact absurd rfl (hother size inner)
    | ask | saveSidecar | close => trivial
  · exact brings_rival _ (.inl rfl)
  · exact brings_rival _ (.inr rfl)

/-- What was stored for one of them is not taken for a block of the other one when its layer is
opened later. -/
theorem isolated_run_reopened :
    let steps := [.attach 3 (rival rivals.1), .ask 0 (.readAt 0 3), .close 0,
      .attach 3 (rival rivals.2)]
    let users := run "cache" { world := { host := () } } steps
    Digest.render rivals.1 = Digest.render rivals.2 ∧
      ∃ reader ∈ users.layers, reader.2.locator.path = rivals.2 ∧
        (reader.2.readAt 0 3 users.world).1.1 = [4, 5, 6] := by
  intro steps users
  let start : World Unit := { host := () }
  have hsteps : ∀ next ∈ steps, Brings (fun path => path = rivals.1 ∨ path = rivals.2)
      rivalContents (fun _ => True) next := by
    apply brings_rivals
    simp [steps]
  -- Neither of the layers finds a store open.
  have hfree {before : List (EntryStep Unit)} {path : String}
      (hclosed : (run "cache" { world := start } before).world.storage.store?
        (CacheEntry.key { directory := "cache", path }) = none) :
      Compatible "cache" rivalContents (run "cache" { world := start } before)
        (.attach 3 (rival path)) := by
    intro store hopen
    cases hclosed.symm.trans hopen
  have hcompatible : ∀ before next, before ++ [next] <+: steps →
      Compatible "cache" rivalContents (run "cache" { world := start } before) next := by
    intro before next hbegins
    rcases before with _ | ⟨first, _ | ⟨second, _ | ⟨third, _ | ⟨fourth, rest⟩⟩⟩⟩
    all_goals
      simp only [steps, List.nil_append, List.cons_append, List.cons_prefix_cons, List.nil_prefix,
        and_true] at hbegins
    · rw [hbegins]
      exact hfree (by decide +kernel)
    · obtain ⟨rfl, rfl⟩ := hbegins
      trivial
    · obtain ⟨rfl, rfl, rfl⟩ := hbegins
      trivial
    · obtain ⟨rfl, rfl, rfl, rfl⟩ := hbegins
      exact hfree (by decide +kernel)
    · simp at hbegins
  have hnew : ∀ path, path = rivals.1 ∨ path = rivals.2 →
      start.storage.Untouched { directory := "cache", path } := untouched_rivals
  have hisolated := (isolated_run_iff "cache" _ rivalContents (fun _ => True) trivial hnew steps
    hsteps).mpr hcompatible steps (List.prefix_refl _)
  obtain ⟨reader, hreader, hpath⟩ : ∃ reader ∈ users.layers, reader.2.locator.path = rivals.2 :=
    ⟨_, List.mem_singleton_self _, rfl⟩
  have hread := hisolated.readAt_eq hreader 0 3
  have hbytes : Bytes.slice (rivalContents rivals.2) 0 3 = [4, 5, 6] := by decide +kernel
  rw [hpath, hbytes] at hread
  exact ⟨by decide +kernel, reader, hreader, hpath, hread⟩

/-- As long as the store is still open, the layer of the other one is given the bytes in it. -/
theorem isolated_run_shared :
    let steps := [.attach 3 (rival rivals.1), .ask 0 (.readAt 0 3), .attach 3 (rival rivals.2)]
    let users := run "cache" { world := { host := () } } steps
    (∀ next ∈ steps, Brings (fun path => path = rivals.1 ∨ path = rivals.2) rivalContents
        (fun _ => True) next) ∧
      rivals.1 ≠ rivals.2 ∧ ∃ reader ∈ users.layers, reader.2.locator.path = rivals.2 ∧
        (reader.2.readAt 0 3 users.world).1.1 = [1, 2, 3] ∧ rivalContents rivals.2 = [4, 5, 6] := by
  intro steps users
  refine ⟨brings_rivals ?_, by decide, _, List.mem_append_right _ (List.mem_singleton_self _), rfl,
    ?_, ?_⟩
  · simp [steps]
  · decide +kernel
  · decide +kernel

end EntryUsers

end PspBoot
