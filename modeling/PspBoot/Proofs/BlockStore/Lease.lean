import PspBoot.Proofs.BlockStore.Ledger

/-!
# Leases

The users of a store have to agree on its path and its size, and the store has to know how many they
are.  That is its `Lease`.  What the operations do to leases does not depend on the files, and no
operation touches the lease of another store.

A property of the storage has its `Upkeep` if it is kept by all that the users of stores do, where
they save the right blocks only.  For a single entry it is enough to look at ledgers
(`Ledger.Stable`, `Storage.upkeep_kept`).
-/

namespace PspBoot

/-- What the users of an open store rely on. -/
structure Lease where
  path : String
  size : Nat
  holders : Nat
deriving Repr, DecidableEq

namespace Lease

/-- One more user. -/
def share (lease : Lease) : Lease :=
  { lease with holders := lease.holders + 1 }

/-- One user less; the last one ends the lease. -/
def giveUp (lease : Lease) : Option Lease :=
  if 1 < lease.holders then some { lease with holders := lease.holders - 1 } else none

/-- A store suits a user for a path and a size: it is one for the same size, and takes whatever is
good for the user. -/
def Suits (lease : Lease) (good : String → Nat → Nat → Bytes → Prop) (path : String)
    (size : Nat) : Prop :=
  lease.size = size ∧ ∀ index block, good path size index block → good lease.path size index block

section Sharing

variable {lease left : Lease} {good : String → Nat → Nat → Bytes → Prop} {path : String}
  {size : Nat}

/-- What the others are left with is the same lease for one user less. -/
theorem of_giveUp_eq_some (h : lease.giveUp = some left) :
    1 < lease.holders ∧ left = { lease with holders := lease.holders - 1 } := by
  unfold giveUp at h
  split at h
  · next hshared => exact ⟨hshared, (Option.some.inj h).symm⟩
  · cases h

theorem holders_giveUp (lease : Lease) : lease.giveUp.elim 0 holders = lease.holders - 1 := by
  unfold giveUp
  by_cases hshared : 1 < lease.holders
  · rw [if_pos hshared, Option.elim_some]
  · rw [if_neg hshared, Option.elim_none]
    omega

/-- The last user leaves no lease behind. -/
theorem holders_ne_zero_of_giveUp (h : lease.giveUp = some left) : left.holders ≠ 0 := by
  obtain ⟨hshared, rfl⟩ := of_giveUp_eq_some h
  dsimp only
  omega

/-- Whom a store suits does not depend on the number of its users. -/
theorem Suits.share (h : lease.Suits good path size) : lease.share.Suits good path size :=
  ⟨h.1, h.2⟩

theorem Suits.giveUp (h : lease.Suits good path size) (hleft : lease.giveUp = some left) :
    left.Suits good path size := by
  obtain ⟨-, rfl⟩ := of_giveUp_eq_some hleft
  exact ⟨h.1, h.2⟩

end Sharing

end Lease

/-- The lease of an open store. -/
def BlockStore.lease (store : BlockStore) : Lease where
  path := store.path
  size := store.size
  holders := store.holders

namespace Storage

variable {storage : Storage} {key other : FilePath.Key} {store : BlockStore} {entry : CacheEntry}
  {size index : Nat}

/-- The lease of the store that is open on a data file. -/
def lease? (storage : Storage) (key : FilePath.Key) : Option Lease :=
  (storage.store? key).map BlockStore.lease

theorem lease?_eq (h : storage.store? key = some store) : storage.lease? key = some store.lease := by
  rw [lease?, h]
  rfl

theorem exists_store_of_lease? {lease : Lease} (h : storage.lease? key = some lease) :
    ∃ store, storage.store? key = some store ∧ store.lease = lease :=
  Option.map_eq_some_iff.mp h

/-! ### Operations and leases -/

theorem lease?_setStore (hopen : storage.store? key = some store) (changed : BlockStore)
    (other : FilePath.Key) :
    (storage.setStore key changed).lease? other =
      if other = key then some changed.lease else storage.lease? other := by
  by_cases hsame : other = key
  · subst hsame
    rw [if_pos rfl, lease?_eq (store?_setStore hopen)]
  · rw [if_neg hsame, lease?, store?_setStore_of_ne hsame, lease?]

/-- A store may be changed without changing hands. -/
theorem lease?_setStore_same (hopen : storage.store? key = some store) {changed : BlockStore}
    (h : changed.lease = store.lease) : (storage.setStore key changed).lease? = storage.lease? := by
  funext other
  rw [lease?_setStore hopen]
  by_cases hsame : other = key
  · rw [if_pos hsame, hsame, lease?_eq hopen, h]
  · rw [if_neg hsame]

theorem lease?_loadBlockAs (storage : Storage) (unreadable : Bool) (key : FilePath.Key)
    (index : Nat) : (storage.loadBlockAs unreadable key index).2.lease? = storage.lease? := by
  cases hopen : storage.store? key with
  | none => rw [loadBlockAs_of_none hopen]
  | some store =>
    rcases loadBlockAs_cases hopen unreadable index with ⟨_, -, -, hrun⟩ | ⟨-, hrun⟩ | hrun
    · rw [hrun]
    · rw [hrun]
    · rw [hrun]
      exact lease?_setStore_same hopen rfl

theorem lease?_loadBlock (storage : Storage) (key : FilePath.Key) (index : Nat) :
    (storage.loadBlock key index).2.lease? = storage.lease? :=
  lease?_loadBlockAs storage false key index

theorem lease?_saveBlockAs (storage : Storage) (fate : FileTree.WriteFate) (key : FilePath.Key)
    (index : Nat) (block : Bytes) :
    (storage.saveBlockAs fate key index block).lease? = storage.lease? := by
  cases hopen : storage.store? key with
  | none => rw [saveBlockAs_of_none hopen]
  | some store =>
    rcases saveBlockAs_cases hopen fate index block with
      ⟨files, -, hrun⟩ | hrun | ⟨_, _, files, -, -, hrun⟩
    · have hkept : ({ storage with files } : Storage).store? key = some store := hopen
      rw [hrun]
      exact lease?_setStore_same hkept rfl
    · rw [hrun]
    · rw [hrun]
      rfl

theorem lease?_saveBlock (storage : Storage) (key : FilePath.Key) (index : Nat) (block : Bytes) :
    (storage.saveBlock key index block).lease? = storage.lease? := by
  rw [← saveBlockAs_whole, lease?_saveBlockAs]

theorem lease?_saveSidecar (storage : Storage) (key : FilePath.Key) :
    (storage.saveSidecar key).2.lease? = storage.lease? := by
  unfold Storage.saveSidecar
  cases hopen : storage.store? key with
  | none => rfl
  | some store =>
    dsimp only
    split
    · rfl
    · next files _ =>
      have hkept : ({ storage with files } : Storage).store? key = some store := hopen
      exact lease?_setStore_same hkept rfl

theorem lease?_release (storage : Storage) (key other : FilePath.Key) :
    (storage.release key).lease? other =
      if other = key then (storage.lease? key).bind Lease.giveUp else storage.lease? other := by
  unfold Storage.release
  cases hopen : storage.store? key with
  | none =>
    by_cases hsame : other = key
    · rw [if_pos hsame, hsame, lease?, hopen]
      rfl
    · rw [if_neg hsame]
  | some store =>
    rw [lease?_eq hopen, Option.bind_some, Lease.giveUp]
    dsimp only
    by_cases hheld : 1 < store.holders
    · have hlease : 1 < store.lease.holders := hheld
      rw [if_pos hheld, if_pos hlease, lease?_setStore hopen]
      rfl
    · have hlease : ¬1 < store.lease.holders := hheld
      rw [if_neg hheld, if_neg hlease]
      have hclose (saved : Storage) (hsaved : saved.lease? = storage.lease?) :
          Storage.lease? { saved with stores := saved.stores.filter (·.1 ≠ key) } other =
            if other = key then none else storage.lease? other := by
        by_cases hsame : other = key
        · rw [if_pos hsame, lease?, hsame, store?_filter]
          rfl
        · rw [if_neg hsame, lease?, store?_filter_of_ne hsame, ← hsaved, lease?]
      split
      · exact hclose _ (lease?_saveSidecar storage key)
      · exact hclose _ rfl

/-- A store that is opened is a new one, or one that is open for the same size. -/
inductive Leased (storage : Storage) (entry : CacheEntry) (size : Nat) : Lease → Prop
  | new (h : storage.lease? entry.key = none) :
      Leased storage entry size { path := entry.path, size, holders := 1 }
  | shared {lease : Lease} (h : storage.lease? entry.key = some lease) (hsize : lease.size = size) :
      Leased storage entry size lease.share

namespace Leased

variable {lease old : Lease} {good : String → Nat → Nat → Bytes → Prop} {path : String}
  {total : Nat}

/-- It has one user more. -/
theorem holders_eq (h : Leased storage entry size lease) :
    lease.holders = (storage.lease? entry.key).elim 0 Lease.holders + 1 := by
  cases h with
  | new hnone => rw [hnone, Option.elim_none]
  | shared hopen hsize =>
    rw [hopen, Option.elim_some]
    rfl

/-- It suits the user who opens it if the one that is open already does. -/
theorem suits (h : Leased storage entry size lease)
    (hopen : ∀ old, storage.lease? entry.key = some old → old.size = size →
      old.Suits good entry.path size) : lease.Suits good entry.path size := by
  cases h with
  | new hnone => exact ⟨rfl, fun _ _ hgood => hgood⟩
  | shared hold hsize => exact (hopen _ hold hsize).share

/-- It goes on to suit the users that it has. -/
theorem suits_of_open (h : Leased storage entry size lease)
    (hopen : storage.lease? entry.key = some old) (hsuits : old.Suits good path total) :
    lease.Suits good path total := by
  cases h with
  | new hnone => cases hnone.symm.trans hopen
  | shared hold hsize =>
    cases hold.symm.trans hopen
    exact hsuits.share

end Leased

theorem openStore_cases (storage : Storage) (entry : CacheEntry) (size : Nat) :
    ((storage.openStore entry size).1 = none ∧
        (storage.openStore entry size).2.lease? = storage.lease?) ∨
      (storage.openStore entry size).1 = some entry.key ∧
        ∃ lease, Leased storage entry size lease ∧
          ∀ other, (storage.openStore entry size).2.lease? other =
            if other = entry.key then some lease else storage.lease? other := by
  unfold Storage.openStore
  cases hopen : storage.store? entry.key with
  | some store =>
    dsimp only
    by_cases hsize : store.size = size
    · rw [if_pos hsize]
      exact .inr ⟨rfl, _, .shared (lease?_eq hopen) hsize, lease?_setStore hopen _⟩
    · rw [if_neg hsize]
      exact .inl ⟨rfl, rfl⟩
  | none =>
    have hnone : storage.lease? entry.key = none := by
      rw [lease?, hopen]
      rfl
    have hprepare : (storage.prepare entry).lease? = storage.lease? := rfl
    dsimp only
    unfold openNew
    split
    · cases (storage.prepare entry).files.openFile entry.dataPath with
      | error error => exact .inl ⟨rfl, hprepare⟩
      | ok result =>
        obtain ⟨data, files⟩ := result
        rw [addStore]
        refine .inr ⟨rfl, _, .new hnone, fun other => ?_⟩
        by_cases hsame : other = entry.key
        · rw [if_pos hsame, lease?, hsame, store?_cons]
          rfl
        · rw [if_neg hsame, lease?, store?_cons_of_ne hsame, ← hprepare, lease?, store?, store?]
    · exact .inl ⟨rfl, hprepare⟩

/-- A block that could not be loaded is not listed. -/
theorem not_mem_filled_of_loadBlockAs {unreadable : Bool}
    (h : (storage.loadBlockAs unreadable key index).1 = none)
    (hopen : (storage.loadBlockAs unreadable key index).2.store? key = some store) :
    index ∉ store.filled := by
  cases hold : storage.store? key with
  | none =>
    rw [loadBlockAs_of_none hold] at hopen
    cases hold.symm.trans hopen
  | some old =>
    rcases loadBlockAs_cases hold unreadable index with
      ⟨_, -, -, hrun⟩ | ⟨hfree, hrun⟩ | hrun
    · rw [hrun] at h
      cases h
    · rw [hrun] at hopen
      cases hold.symm.trans hopen
      exact hfree
    · rw [hrun, store?_setStore hold] at hopen
      cases hopen
      simp [BlockStore.BlockSet.erase]

end Storage

/-! ### Upkeep -/

/-- A property of the storage is kept by all that users of stores for known paths and sizes do, if
only good blocks are saved. -/
structure Storage.Upkeep (kept : Storage → Prop) (directory : String)
    (known : String → Nat → Prop) (good : String → Nat → Nat → Bytes → Prop) : Prop where
  openStore : ∀ {storage path size}, kept storage → known path size →
    kept (storage.openStore { directory, path } size).2
  loadBlock : ∀ {storage path size}, kept storage → known path size → ∀ index,
    kept (storage.loadBlock (CacheEntry.key { directory, path }) index).2
  saveBlock : ∀ {storage path size store index block}, kept storage → known path size →
    storage.store? (CacheEntry.key { directory, path }) = some store →
      store.grid.start index < store.size → index ∉ store.filled →
        block.length = store.grid.width index → good store.path store.size index block →
          kept (storage.saveBlock (CacheEntry.key { directory, path }) index block)
  saveSidecar : ∀ {storage path size}, kept storage → known path size →
    kept (storage.saveSidecar (CacheEntry.key { directory, path })).2
  release : ∀ {storage path size}, kept storage → known path size →
    kept (storage.release (CacheEntry.key { directory, path }))

/-- Two properties that are kept up are kept up together. -/
theorem Storage.Upkeep.and {kept kept' : Storage → Prop} {directory : String}
    {known : String → Nat → Prop} {good : String → Nat → Nat → Bytes → Prop}
    (h : Upkeep kept directory known good) (h' : Upkeep kept' directory known good) :
    Upkeep (fun storage => kept storage ∧ kept' storage) directory known good where
  openStore hkept hknown := ⟨h.openStore hkept.1 hknown, h'.openStore hkept.2 hknown⟩
  loadBlock hkept hknown index :=
    ⟨h.loadBlock hkept.1 hknown index, h'.loadBlock hkept.2 hknown index⟩
  saveBlock hkept hknown hopen hinside hfree hlength hgood :=
    ⟨h.saveBlock hkept.1 hknown hopen hinside hfree hlength hgood,
      h'.saveBlock hkept.2 hknown hopen hinside hfree hlength hgood⟩
  saveSidecar hkept hknown := ⟨h.saveSidecar hkept.1 hknown, h'.saveSidecar hkept.2 hknown⟩
  release hkept hknown := ⟨h.release hkept.1 hknown, h'.release hkept.2 hknown⟩

/-- Stores are found under the keys of the paths that they were opened for. -/
def Storage.Addressed (directory : String) (keys : FilePath.Key → Prop) (storage : Storage) : Prop :=
  ∀ key, keys key → ∀ lease, storage.lease? key = some lease →
    CacheEntry.key { directory, path := lease.path } = key

/-- That is never changed. -/
theorem Storage.upkeep_addressed (directory : String) (keys : FilePath.Key → Prop)
    (known : String → Nat → Prop) (good : String → Nat → Nat → Bytes → Prop) :
    Upkeep (Addressed directory keys) directory known good where
  openStore := by
    intro storage path size h _ key hkey lease hlease
    rcases openStore_cases storage { directory, path } size with
      ⟨-, hleases⟩ | ⟨-, opened, hopened, hleases⟩
    · rw [hleases] at hlease
      exact h key hkey lease hlease
    · rw [hleases] at hlease
      split at hlease
      · next hown =>
        subst hown
        cases hlease
        cases hopened with
        | new _ => rfl
        | shared hold _ =>
          have haddressed := h _ hkey _ hold
          exact haddressed
      · exact h key hkey lease hlease
  loadBlock := by
    intro storage path size h _ index key hkey lease hlease
    rw [lease?_loadBlock] at hlease
    exact h key hkey lease hlease
  saveBlock := by
    intro storage path size store index block h _ _ _ _ _ _ key hkey lease hlease
    rw [lease?_saveBlock] at hlease
    exact h key hkey lease hlease
  saveSidecar := by
    intro storage path size h _ key hkey lease hlease
    rw [lease?_saveSidecar] at hlease
    exact h key hkey lease hlease
  release := by
    intro storage path size h _ key hkey lease hlease
    rw [lease?_release] at hlease
    split at hlease
    · next hown =>
      obtain ⟨old, hold, hgiven⟩ := Option.bind_eq_some_iff.mp hlease
      have haddressed := h key hkey old (hown ▸ hold)
      obtain ⟨-, rfl⟩ := Lease.of_giveUp_eq_some hgiven
      exact haddressed
    · exact h key hkey lease hlease

/-- The same for a property of ledgers. -/
structure Ledger.Stable (I : Ledger → Prop) (directory : String)
    (known : String → Nat → Prop) (good : String → Nat → Nat → Bytes → Prop) : Prop where
  openStore : ∀ {ledger path size}, I ledger → known path size →
    I (ledger.openStore { directory, path } size).2
  loadBlock : ∀ {ledger} index, I ledger → I (ledger.loadBlock index).2
  saveBlock : ∀ {ledger store index block}, I ledger → ledger.store? = some store →
    store.grid.start index < store.size → index ∉ store.filled →
      block.length = store.grid.width index → good store.path store.size index block →
        I (ledger.saveBlock index block)
  saveSidecar : ∀ {ledger}, I ledger → I ledger.saveSidecar
  release : ∀ {ledger}, I ledger → I ledger.release

namespace Storage

variable {storage : Storage} {entry : CacheEntry} {I : Ledger → Prop} {fresh : Storage → Prop}
  {known : String → Nat → Prop} {good : String → Nat → Nat → Bytes → Prop} {size : Nat}

/-- The storage has an entry as a ledger with a property says. -/
def Kept (storage : Storage) (entry : CacheEntry) (I : Ledger → Prop) : Prop :=
  ∃ home ledger, storage.Keeps entry home ledger ∧ I ledger

/-- The first store of an entry that has never been used. -/
theorem Untouched.openStore_kept (h : storage.Untouched entry)
    (hblank : ∀ ledger : Ledger, ledger.label? = none → ledger.store? = none → I ledger)
    (hstable : Ledger.Stable I entry.directory known good) (hknown : known entry.path size) :
    storage.openStore entry size = (none, storage.prepare entry) ∨
      (storage.openStore entry size).1 = some entry.key ∧
        (storage.openStore entry size).2.Kept entry I := by
  refine (h.vacant size).imp_right ?_
  rintro ⟨home, hvacant⟩
  obtain ⟨hkey, hkeeps, -⟩ := openStore_of_vacant h.closed hvacant size
  exact ⟨hkey, home, _, hkeeps, hstable.openStore (hblank _ rfl rfl) hknown⟩

/-- Nothing is listed for an entry that has never been used, whether its directory is there or
not. -/
theorem Untouched.listed_eq_nil (h : storage.Untouched entry) (size : Nat) :
    entry.listed storage.files size = [] := by
  have habsent := (storage.files.grows_makeDirectories entry.directory).absent h.noSidecar
  obtain ⟨error, herror⟩ := FileTree.bytesOf_of_absent habsent
  rw [CacheEntry.listed, herror]
  rfl

/-- What is stable for ledgers is kept up by the users of one entry.  Before its first store is
opened the storage need only be `fresh`. -/
theorem upkeep_kept (hstable : Ledger.Stable I entry.directory known good)
    (hsingle : ∀ {path size}, known path size → path = entry.path)
    (hfresh : ∀ {storage}, fresh storage → storage.Untouched entry)
    (hopen : ∀ {storage size}, fresh storage → known entry.path size →
      fresh (storage.openStore entry size).2 ∨ (storage.openStore entry size).2.Kept entry I) :
    Upkeep (fun storage => fresh storage ∨ storage.Kept entry I) entry.directory known good where
  openStore := by
    intro storage path size hkept hknown
    obtain rfl := hsingle hknown
    rcases hkept with hnew | ⟨home, ledger, hkeeps, hI⟩
    · exact hopen hnew hknown
    · exact .inr ⟨home, _, (hkeeps.openStore size).2.1, hstable.openStore hI hknown⟩
  loadBlock := by
    intro storage path size hkept hknown index
    obtain rfl := hsingle hknown
    rcases hkept with hnew | ⟨home, ledger, hkeeps, hI⟩
    · left
      rw [Storage.loadBlock, (hfresh hnew).closed]
      exact hnew
    · exact .inr ⟨home, _, (hkeeps.loadBlock index).2.1, hstable.loadBlock index hI⟩
  saveBlock := by
    intro storage path size store index block hkept hknown hstore hinside hfree hlength hgood
    obtain rfl := hsingle hknown
    rcases hkept with hnew | ⟨home, ledger, hkeeps, hI⟩
    · cases (hfresh hnew).closed.symm.trans hstore
    · have hopen := hkeeps.store_eq.symm.trans hstore
      exact .inr ⟨home, _, (hkeeps.saveBlock index block).1,
        hstable.saveBlock hI hopen hinside hfree hlength hgood⟩
  saveSidecar := by
    intro storage path size hkept hknown
    obtain rfl := hsingle hknown
    rcases hkept with hnew | ⟨home, ledger, hkeeps, hI⟩
    · left
      rw [Storage.saveSidecar, (hfresh hnew).closed]
      exact hnew
    · exact .inr ⟨home, _, hkeeps.saveSidecar.1, hstable.saveSidecar hI⟩
  release := by
    intro storage path size hkept hknown
    obtain rfl := hsingle hknown
    rcases hkept with hnew | ⟨home, ledger, hkeeps, hI⟩
    · left
      rw [Storage.release, (hfresh hnew).closed]
      exact hnew
    · exact .inr ⟨home, _, hkeeps.release.1, hstable.release hI⟩

end Storage

end PspBoot
