import PspBoot.Proofs.Source.Surplus
import PspBoot.Proofs.Source.Twins

/-!
# Chains over sources that answer too much

A disk cache keeps to the bounds of reads just as far as a memory cache does: as long as no block
spills over into the next one.  The store that it uses stays open while it is used, whatever the
chain behind it is (`Chain.twins_leases`).  `bounds_law` puts together what is so of all that may be
wound around a source.
-/

namespace PspBoot

variable {σ τ η : Type}

/-! ### Leases -/

namespace Source

/-- Twins stay related whatever is done with both of them. -/
theorem Twins.after {R : σ → τ → Prop} {a : Source σ} {b : Source τ} (h : a.Twins R b)
    (operation : Operation) {s : σ} {t : τ} (hst : R s t) :
    R (a.after s operation) (b.after t operation) := by
  cases operation with
  | ask call => exact (h.ask call s t hst).2
  | hasEntry name => exact (h.hasEntry name s t hst).2
  | lastFailure => exact (h.lastFailure s t hst).2
  | failureCount => exact (h.failureCount s t hst).2

theorem Twins.afterAll {R : σ → τ → Prop} {a : Source σ} {b : Source τ} (h : a.Twins R b)
    (operations : List Operation) {s : σ} {t : τ} (hst : R s t) :
    R (a.afterAll operations s) (b.afterAll operations t) := by
  induction operations generalizing s t with
  | nil => exact hst
  | cons operation operations ih => exact ih (h.after operation hst)

end Source

namespace Chain

/-- **No chain touches the leases of open stores.**  The chain is compared with itself, so that what
is so of the leases is carried along. -/
theorem twins_leases (chain : Chain η) (leases : FilePath.Key → Option Lease) :
    chain.source.Twins (fun s t => s = t ∧ s.2.storage.lease? = leases) chain.source := by
  induction chain with
  | supplied source =>
    refine (Source.Twins.refl source).within ?_ ?_
    · rintro v _ ⟨rfl, -⟩
      rfl
    · rintro v _ s _ ⟨rfl, hleases⟩ rfl
      exact ⟨rfl, hleases⟩
  | localFile locator file =>
    refine (Source.Twins.refl _).within ?_ ?_
    · rintro v _ ⟨rfl, -⟩
      rfl
    · rintro v _ s _ ⟨rfl, hleases⟩ rfl
      exact ⟨rfl, hleases⟩
  | remote locator transport =>
    refine (Source.Twins.refl _).within ?_ ?_
    · rintro v _ ⟨rfl, -⟩
      rfl
    · rintro v _ s _ ⟨rfl, hleases⟩ rfl
      exact ⟨rfl, hleases⟩
  | retrying policy inner ih => exact ih.retrying policy
  | memoryCached policy inner ih =>
    refine (ih.memoryCached policy).within ?_ ?_
    · rintro v _ ⟨rfl, hleases⟩
      exact ⟨rfl, rfl, hleases⟩
    · rintro v _ ⟨cache, s⟩ ⟨_, _⟩ - ⟨rfl, rfl, hleases⟩
      exact ⟨rfl, hleases⟩
  | diskCached key inner ih =>
    refine Source.Twins.diskCached ih ?_ ?_ key
    · rintro s _ ⟨rfl, -⟩
      rfl
    · rintro s _ kept ⟨rfl, hleases⟩ hsame
      exact ⟨rfl, hsame.trans hleases⟩

/-- An open store stays open, with the same blocks. -/
theorem store?_afterAll (chain : Chain η) {key : FilePath.Key} {store : BlockStore}
    {s : chain.State × World η} (hopen : s.2.storage.store? key = some store)
    (operations : List Operation) :
    ∃ store', (chain.source.afterAll operations s).2.storage.store? key = some store' ∧
      store'.size = store.size := by
  have hsame : s = s ∧ s.2.storage.lease? = s.2.storage.lease? := ⟨rfl, rfl⟩
  have hleases := ((chain.twins_leases _).afterAll operations hsame).2
  have hlease := (congrFun hleases key).trans (Storage.lease?_eq hopen)
  obtain ⟨store', hopen', hstore⟩ := Storage.exists_store_of_lease? hlease
  exact ⟨store', hopen', congrArg Lease.size hstore⟩

end Chain

/-! ### Disk caches -/

namespace DiskCache

variable {inner : Source (σ × World η)} {key : FilePath.Key} {store : BlockStore}
  {s t : σ × World η}

/-- A read with an open store. -/
theorem run_readAt_of_open (inner : Source (σ × World η))
    (hopen : t.2.storage.store? key = some store) {grid : BlockGrid} (hgrid : store.grid = grid)
    (offset len : Nat) :
    readAt (some key) inner offset len t =
      if grid.total ≤ offset ∨ len = 0 then
        ([], t)
      else
        grid.collect (fetch key inner grid) offset (min (offset + len) grid.total)
          (grid.indexOf (min (offset + len) grid.total - 1) - grid.indexOf offset + 1)
          (grid.indexOf offset) t := by
  subst hgrid
  simp only [readAt, run_bind, run_store?, Option.bind_some, hopen, run_ite, run_pure]
  rfl

end DiskCache

namespace Chain

open DiskCache

variable {chain : Chain η} {key : FilePath.Key} {store : BlockStore} {s : chain.State × World η}

/-- A block spills over into the next one. -/
def Spills (chain : Chain η) (key : FilePath.Key) (grid : BlockGrid) (t : chain.State × World η) :
    Prop :=
  ∃ index, grid.Spills (fetch key chain.source grid) index t

/-- In every state that is reached the store is open, for the same blocks. -/
theorem grid_afterAll (hopen : s.2.storage.store? key = some store) (operations : List Operation) :
    ∃ store', ((chain.source.diskCached (some key)).afterAll operations s).2.storage.store? key =
      some store' ∧ store'.grid = store.grid := by
  obtain ⟨store', hopen', hsize⟩ :=
    (Chain.diskCached (some key) chain).store?_afterAll hopen operations
  exact ⟨store', hopen', congrArg (BlockGrid.mk BlockStore.blockSize) hsize⟩

/-- With a store nothing is read from the end of its size on. -/
theorem nothingBehind_of_open (hopen : s.2.storage.store? key = some store) :
    (chain.source.diskCached (some key)).NothingBehind s := by
  intro operations offset len t hbehind
  obtain ⟨store', hopen', hgrid⟩ := grid_afterAll hopen operations
  rw [run_size chain.source hopen'] at hbehind
  change (readAt (some key) chain.source offset len t).1 = []
  rw [run_readAt_of_open chain.source hopen' rfl, if_pos (.inl hbehind)]

/-- The blocks of the store have bytes. -/
theorem blockSize_grid_ne_zero (store : BlockStore) : store.grid.blockSize ≠ 0 :=
  Nat.ne_of_gt (by decide : 0 < BlockStore.blockSize)

/-- A state that is reached with a store open. -/
def Reached (chain : Chain η) (key : FilePath.Key) (grid : BlockGrid)
    (s t : chain.State × World η) : Prop :=
  (∃ store, t.2.storage.store? key = some store ∧ store.grid = grid) ∧
    ∃ operations, (chain.source.diskCached (some key)).afterAll operations s = t

theorem reached_afterAll (hopen : s.2.storage.store? key = some store)
    (operations : List Operation) :
    chain.Reached key store.grid s
      ((chain.source.diskCached (some key)).afterAll operations s) :=
  ⟨grid_afterAll hopen operations, operations, rfl⟩

/-- The state behind a fetch is reached by a read of one byte. -/
theorem reached_fetch (hopen : s.2.storage.store? key = some store) {index : Nat}
    (hinside : store.grid.start index < store.grid.total) {t : chain.State × World η}
    (h : chain.Reached key store.grid s t) :
    chain.Reached key store.grid s (fetch key chain.source store.grid index t).2 := by
  obtain ⟨⟨store', hopen', hgrid⟩, operations, rfl⟩ := h
  have hcovers := BlockGrid.covers_start (blockSize_grid_ne_zero store) hinside
  have hread := run_readAt_one chain.source hopen' hgrid hcovers
  have hreached := reached_afterAll hopen
    (operations ++ [.ask (.readAt (store.grid.start index) 1)])
  rw [Source.afterAll_append] at hreached
  change chain.Reached key store.grid s (readAt (some key) chain.source _ 1 _).2 at hreached
  rwa [hread] at hreached

/-- **With a store reads keep to the bounds just if no block spills over**, whatever has been done
before. -/
theorem keepsBounds_iff_of_open (hopen : s.2.storage.store? key = some store) :
    (chain.source.diskCached (some key)).KeepsBounds s ↔
      ∀ operations,
        ¬chain.Spills key store.grid
          ((chain.source.diskCached (some key)).afterAll operations s) := by
  have hsize := blockSize_grid_ne_zero store
  constructor
  · rintro ⟨hlength, -⟩ operations ⟨index, hspill⟩
    obtain ⟨store', hopen', hgrid⟩ := grid_afterAll hopen operations
    obtain ⟨hstop, hspan⟩ := BlockGrid.span_of_spills hsize hspill
    have hinside : store.grid.start index < store.grid.total :=
      Nat.lt_of_le_of_lt (BlockGrid.start_mono _ (Nat.le_succ index)) hspill.1
    have hlong := hlength operations (store.grid.start index) (store.grid.blockSize + 1)
    change (readAt (some key) chain.source _ _ _).1.length ≤ _ at hlong
    rw [run_readAt_of_open chain.source hopen' hgrid, if_neg (by omega), hstop, hspan,
      BlockGrid.indexOf_start _ hsize, BlockGrid.length_collect_of_spills hspill] at hlong
    exact Nat.not_succ_le_self _ hlong
  · intro hnone
    refine ⟨fun operations offset len => ?_, nothingBehind_of_open hopen⟩
    obtain ⟨store', hopen', hgrid⟩ := grid_afterAll hopen operations
    change (readAt (some key) chain.source offset len _).1.length ≤ len
    rw [run_readAt_of_open chain.source hopen' hgrid]
    split
    · exact Nat.zero_le _
    · have hoffset : offset < min (offset + len) store.grid.total := by omega
      have hwindow := BlockGrid.length_window_le (V := chain.Reached key store.grid s) hoffset
        (Nat.min_le_right _ _) (fun index t hinside ht => reached_fetch hopen hinside ht)
        (fun index t ht hspill => ?_) (reached_afterAll hopen operations)
      · exact Nat.le_trans hwindow (by omega)
      · obtain ⟨-, operations, rfl⟩ := ht
        exact hnone operations ⟨index, hspill⟩

/-- **A disk cache keeps to the bounds if the chain behind it does.** -/
theorem keepsBounds_of_modest (hmodest : chain.source.Modest)
    (hopen : s.2.storage.store? key = some store) :
    (chain.source.diskCached (some key)).KeepsBounds s := by
  refine (keepsBounds_iff_of_open hopen).mpr fun operations => ?_
  rintro ⟨index, hspill⟩
  refine BlockGrid.not_spills ?_ hspill
  generalize (chain.source.diskCached (some key)).afterAll operations s = t
  rcases hload : (t.2.storage.loadBlock key index).1 with _ | data
  · rw [run_fetch_of_none hload rfl]
    exact Nat.le_trans (hmodest _ _ _) (store.grid.width_le index)
  · rw [run_fetch_of_some hload]
    exact Storage.length_of_loadBlock hload

end Chain

/-! ### The law -/

/-- What becomes of the bounds of reads, by what is wound around a source. -/
structure BoundsLaw (inner : Source σ) (chain : Chain η) : Prop where
  /-- Retries always keep to them. -/
  retrying : ∀ policy s, (inner.retrying policy).KeepsBounds s
  /-- A memory cache reads nothing from the end of the size on that it tells, and keeps to the
  bounds just if no block spills and no read past it overflows. -/
  memoryCached : ∀ policy s,
    (inner.memoryCached policy).NothingBehind s ∧
      ((inner.memoryCached policy).KeepsBounds s ↔
        ∀ operations,
          let t := (inner.memoryCached policy).afterAll operations s
          ¬MemoryCache.Spills policy inner t ∧ ¬MemoryCache.Overflows policy inner t)
  /-- A new memory cache keeps to them if the source does not answer too much. -/
  memoryCached_modest : ∀ policy s, inner.Modest → (inner.memoryCached policy).KeepsBounds ({}, s)
  /-- A disk cache without a store is no better than what it is wound around. -/
  unstored : ∀ s, (chain.source.diskCached none).KeepsBounds s ↔ chain.source.KeepsBounds s
  /-- With a store nothing is read from the end of its size on, and the bounds are kept just if no
  block spills. -/
  stored : ∀ key store s, s.2.storage.store? key = some store →
    (chain.source.diskCached (some key)).NothingBehind s ∧
      ((chain.source.diskCached (some key)).KeepsBounds s ↔
        ∀ operations,
          ¬chain.Spills key store.grid
            ((chain.source.diskCached (some key)).afterAll operations s))
  /-- With a store they are kept if the chain behind it does not answer too much. -/
  stored_modest : ∀ key store s, s.2.storage.store? key = some store → chain.source.Modest →
    (chain.source.diskCached (some key)).KeepsBounds s

/-- **Retries keep every source within bounds, and caches those that do not answer too much.**
Where the bounds are broken behind a cache, a block has spilled, or a read past the cache has been
passed on as it was answered. -/
theorem bounds_law (inner : Source σ) (chain : Chain η) : BoundsLaw inner chain where
  retrying policy s := Retrying.keepsBounds policy inner s
  memoryCached policy s :=
    ⟨MemoryCache.nothingBehind policy inner s, MemoryCache.keepsBounds_iff policy inner s⟩
  memoryCached_modest policy s hmodest := MemoryCache.keepsBounds_of_modest policy hmodest s
  unstored _ := Iff.rfl
  stored _ _ _ hopen := ⟨Chain.nothingBehind_of_open hopen, Chain.keepsBounds_iff_of_open hopen⟩
  stored_modest _ _ _ hopen hmodest := Chain.keepsBounds_of_modest hmodest hopen

/-- The source of a content that has two bytes more in every answer. -/
def Source.lavish (content : Bytes) : Source Unit :=
  { Source.ofContent (.ofPath "http://h/a") content with
    readAt := fun offset len => pure (Bytes.slice content offset len ++ [0xEE, 0xEE]) }

/-- Behind retries even such a source may be cached. -/
theorem bounds_law_lavish :
    let lavish := Source.lavish [0, 1, 2, 3, 4, 5, 6, 7]
    let policy : MemoryPolicy := { blockSize := 4, capacity := 4 }
    let cached := (lavish.retrying .standard).memoryCached policy
    let chain : Chain Unit := .retrying .standard (.supplied lavish)
    let entry : CacheEntry := { directory := "cache", path := "http://h/a" }
    let opened := ({} : Storage).openStore entry 8
    let stored := chain.source.diskCached opened.1
    let s : chain.State × World Unit := ((), { storage := opened.2, host := () })
    ¬lavish.Modest ∧ (lavish.retrying .standard).Modest ∧
      cached.KeepsBounds ({}, ()) ∧ (cached.readAt 0 8 ({}, ())).1 = [0, 1, 2, 3, 4, 5, 6, 7] ∧
      stored.KeepsBounds s ∧ (stored.readAt 4 9 s).1 = [4, 5, 6, 7] := by
  intro lavish policy cached chain entry opened stored s
  have hlavish : ¬lavish.Modest := fun h => absurd (h 0 0 ()) (by decide)
  have hmodest := Retrying.modest .standard lavish
  have hkey : opened.1 = some entry.key := by decide +kernel
  obtain ⟨store, hopen⟩ : ∃ store, opened.2.store? entry.key = some store :=
    Option.isSome_iff_exists.mp (by decide +kernel)
  have hlaw := bounds_law (lavish.retrying .standard) chain
  refine ⟨hlavish, hmodest, hlaw.memoryCached_modest policy () hmodest, by decide +kernel, ?_, ?_⟩
  · have hstored := hlaw.stored_modest entry.key store s hopen (Retrying.modest .standard _)
    rwa [← hkey] at hstored
  · decide +kernel

/-- Its first block spills if there is another one, and the store has neither of them. -/
theorem Chain.spills_lavish {content : Bytes} {key : FilePath.Key} {store : BlockStore}
    {s : (Chain.supplied (.lavish content)).State × World Unit}
    (hopen : s.2.storage.store? key = some store) (hnew : store.filled = [])
    (hsize : store.size = content.length) (htwo : BlockStore.blockSize < content.length) :
    (Chain.supplied (.lavish content)).Spills key store.grid s := by
  have hload (index : Nat) : s.2.storage.loadBlock key index = (none, s.2.storage) := by
    rw [Storage.loadBlock, hopen]
    simp [hnew]
  have htotal : store.grid.total = content.length := hsize
  have hfetch (index : Nat) :
      DiskCache.fetch key (Chain.supplied (.lavish content)).source store.grid index s =
        (store.grid.blockOf content index ++ [0xEE, 0xEE], s) := by
    have hlong : ¬(store.grid.blockOf content index ++ [0xEE, 0xEE]).length =
        store.grid.width index := by
      rw [List.length_append, BlockGrid.length_blockOf htotal]
      exact Nat.ne_of_gt (Nat.lt_add_of_pos_right Nat.two_pos)
    have hread : (Chain.supplied (.lavish content)).source.readAt (store.grid.start index)
        (store.grid.width index) (DiskCache.storage.put s (s.2.storage.loadBlock key index).2) =
          (store.grid.blockOf content index ++ [0xEE, 0xEE], s) := by
      rw [hload]
      rfl
    rw [DiskCache.run_fetch_of_none (congrArg Prod.fst (hload index)) hread, if_neg hlong]
  refine ⟨0, ?_, ?_, ?_⟩
  · rw [htotal, BlockGrid.start, Nat.one_mul]
    exact htwo
  · rw [hfetch, List.length_append, BlockGrid.length_blockOf htotal]
    exact Nat.lt_add_of_pos_right Nat.two_pos
  · rw [hfetch, hfetch]
    exact List.append_ne_nil_of_right_ne_nil _ (List.cons_ne_nil _ _)

/-- Without retries it may not. -/
theorem not_keepsBounds_lavish :
    let lavish := Source.lavish [0, 1, 2, 3, 4, 5, 6, 7]
    let past := lavish.memoryCached { blockSize := 4, capacity := 1 }
    let few := lavish.memoryCached { blockSize := 4, capacity := 4 }
    let chain : Chain Unit := .supplied lavish
    let unstored := chain.source.diskCached none
    let world : World Unit := { host := () }
    let long : Chain Unit := .supplied (.lavish (List.replicate 65540 7))
    let entry : CacheEntry := { directory := "cache", path := "http://h/a" }
    let opened := ({} : Storage).openStore entry 65540
    let stored := long.source.diskCached opened.1
    (past.readAt 0 8 ({}, ())).1 = [0, 1, 2, 3, 4, 5, 6, 7, 0xEE, 0xEE] ∧
      (few.readAt 0 8 ({}, ())).1 = [0, 1, 2, 3, 0xEE, 0xEE, 4, 5, 6, 7] ∧
      (unstored.size ((), world)).1 = 8 ∧ (unstored.readAt 8 1 ((), world)).1 = [0xEE, 0xEE] ∧
      ¬past.KeepsBounds ({}, ()) ∧ ¬few.KeepsBounds ({}, ()) ∧ ¬unstored.KeepsBounds ((), world) ∧
      ¬stored.KeepsBounds ((), { world with storage := opened.2 }) := by
  intro lavish past few chain unstored world long entry opened stored
  have hpast : (past.readAt 0 8 ({}, ())).1 = [0, 1, 2, 3, 4, 5, 6, 7, 0xEE, 0xEE] := by
    decide +kernel
  have hfew : (few.readAt 0 8 ({}, ())).1 = [0, 1, 2, 3, 0xEE, 0xEE, 4, 5, 6, 7] := by
    decide +kernel
  have hunstored : (unstored.readAt 8 1 ((), world)).1 = [0xEE, 0xEE] := by decide +kernel
  refine ⟨hpast, hfew, rfl, hunstored, fun h => ?_, fun h => ?_, fun h => ?_, fun h => ?_⟩
  · have hlong := h.length [] 0 8
    rw [Source.afterAll, List.foldl_nil, hpast] at hlong
    exact absurd hlong (by decide)
  · have hlong := h.length [] 0 8
    rw [Source.afterAll, List.foldl_nil, hfew] at hlong
    exact absurd hlong (by decide)
  · have hlong := h.length [] 8 1
    rw [Source.afterAll, List.foldl_nil, hunstored] at hlong
    exact absurd hlong (by decide)
  · obtain ⟨store, hopen, hstore⟩ := Option.map_eq_some_iff.mp
      (show (opened.2.store? entry.key).map (fun store => (store.filled, store.size)) =
        some ([], 65540) by decide +kernel)
    obtain ⟨hnew, hsize⟩ := Prod.mk.inj hstore
    have hkey : opened.1 = some entry.key := by decide +kernel
    have hlength : (List.replicate 65540 7 : Bytes).length = 65540 := List.length_replicate
    change (long.source.diskCached opened.1).KeepsBounds _ at h
    rw [hkey] at h
    exact (Chain.keepsBounds_iff_of_open hopen).mp h []
      (Chain.spills_lavish hopen hnew (hsize.trans hlength.symm) (hlength.symm ▸ by decide))

end PspBoot
