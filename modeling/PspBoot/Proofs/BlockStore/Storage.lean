import PspBoot.Proofs.BlockStore.Entry

/-!
# Storage that can be trusted

`storage.Sound entry known` says that the files and the store of an entry are as they have to be:
either the entry has never been used, or its data file has the blocks that are listed for one of the
known contents.  Every operation of a store keeps this, and what is loaded from a store is right.

`storage.usage entry` is what the users of a store have to agree on: the size for which it is open
and how many they are.
-/

namespace PspBoot.Storage

variable {entry : CacheEntry} {known : Bytes → Prop} {storage : Storage} {content : Bytes}
  {store : BlockStore} {key : FilePath.Key}

/-! ### The table of open stores -/

theorem store?_setStore {old : BlockStore} (h : storage.store? key = some old) :
    (storage.setStore key store).store? key = some store := by
  obtain ⟨files, stores⟩ := storage
  unfold store? setStore at *
  dsimp only at h ⊢
  induction stores with
  | nil => cases h
  | cons other stores ih =>
    rw [List.map_cons]
    by_cases hkey : other.1 = key
    · rw [if_pos hkey, List.lookup_cons, beq_self_eq_true]
    · have hother : (key == other.1) = false := beq_eq_false_iff_ne.mpr (Ne.symm hkey)
      rw [List.lookup_cons, hother] at h
      rw [if_neg hkey, List.lookup_cons, hother]
      exact ih h

theorem store?_cons (files : FileTree) (stores : List (FilePath.Key × BlockStore)) :
    (Storage.mk files ((key, store) :: stores)).store? key = some store := by
  rw [store?]
  exact List.lookup_cons_self

theorem store?_filter (key : FilePath.Key) (files : FileTree)
    (stores : List (FilePath.Key × BlockStore)) :
    (Storage.mk files (stores.filter (·.1 ≠ key))).store? key = none := by
  unfold store?
  dsimp only
  induction stores with
  | nil => rfl
  | cons other stores ih =>
    rw [List.filter_cons]
    by_cases hkey : other.1 = key
    · rw [if_neg (by simp [hkey])]
      exact ih
    · have hother : (key == other.1) = false := beq_eq_false_iff_ne.mpr (Ne.symm hkey)
      rw [if_pos (by simp [hkey]), List.lookup_cons, hother]
      exact ih

/-! ### Soundness -/

/-- Nothing has been kept for the entry yet: no store is open, and there are no files where its
files belong, even if its directory is made. -/
structure Untouched (storage : Storage) (entry : CacheEntry) : Prop where
  closed : storage.store? entry.key = none
  noData : (storage.files.makeDirectories entry.directory).pathExists entry.dataPath = false
  noSidecar : (storage.files.makeDirectories entry.directory).pathExists entry.sidecarPath = false

/-- What is kept for the entry can be trusted. -/
def Sound (storage : Storage) (entry : CacheEntry) (known : Bytes → Prop) : Prop :=
  storage.Untouched entry ∨
    ∃ data home, entry.Filed known storage.files (storage.store? entry.key) data home

/-- The size for which the store of the entry is open, and the number of its users. -/
def usage (storage : Storage) (entry : CacheEntry) : Option (Nat × Nat) :=
  (storage.store? entry.key).map fun store => (store.size, store.holders)

namespace Sound

theorem filed (h : storage.Sound entry known) (hopen : storage.store? entry.key = some store) :
    ∃ data home, entry.Filed known storage.files (some store) data home := by
  rcases h with huntouched | ⟨data, home, hfiled⟩
  · simp [huntouched.closed] at hopen
  · rw [hopen] at hfiled
    exact ⟨data, home, hfiled⟩

end Sound

/-- An entry that has never been used stays so when its directory is made. -/
theorem Untouched.prepare (h : storage.Untouched entry) :
    (storage.prepare entry).Untouched entry where
  closed := h.closed
  noData := by
    rw [Storage.prepare, FileTree.makeDirectories_makeDirectories]
    exact h.noData
  noSidecar := by
    rw [Storage.prepare, FileTree.makeDirectories_makeDirectories]
    exact h.noSidecar

/-- The first use of an entry makes its data file. -/
theorem Untouched.openFile (h : storage.Untouched entry) {data : FileId} {files : FileTree}
    (hopen : (storage.files.makeDirectories entry.directory).openFile entry.dataPath =
      .ok (data, files)) :
    ∃ home, entry.Filed known files none data home := by
  obtain ⟨names, hlocate, hcases⟩ := FileTree.openFile_eq_ok hopen
  obtain ⟨home, hplace, hsidecar⟩ := CacheEntry.locate_sidecarPath hlocate
  have hdataFree := Option.isSome_eq_false_iff.mp
    ((FileTree.pathExists_of_locate hlocate).symm.trans h.noData)
  have hsidecarFree := Option.isSome_eq_false_iff.mp
    ((FileTree.pathExists_of_locate hsidecar).symm.trans h.noSidecar)
  rw [Option.isNone_iff_eq_none] at hdataFree hsidecarFree
  rcases hcases with ⟨hnode, -⟩ | ⟨-, rfl, rfl⟩
  · simp [hdataFree] at hnode
  · have hgrows := FileTree.grows_addFile hdataFree {}
    rw [hplace] at hlocate
    refine ⟨home, hgrows.locate hlocate, hgrows.locate hsidecar, ?_, ?_, ?_, ?_⟩
    · rw [← hplace]
      exact FileTree.node?_addFile hdataFree {}
    · simp [FileTree.addFile]
    · intro id hnode
      rw [FileTree.node?_addFile_of_ne hdataFree {}
        (hplace ▸ entry.sidecarPlace_ne home), hsidecarFree] at hnode
      cases hnode
    · intro store hstore
      cases hstore

/-- When a program ends, its stores are gone.  If the path has only ever had one content, it makes
no difference whether they were closed before. -/
theorem Sound.forget (h : storage.Sound entry (· = content)) :
    Sound { storage with stores := [] } entry (· = content) := by
  rcases h with huntouched | ⟨data, home, hfiled⟩
  · exact .inl ⟨rfl, huntouched.noData, huntouched.noSidecar⟩
  · refine .inr ⟨data, home, hfiled.dataPlace, hfiled.sidecarPlace, hfiled.dataNode,
      hfiled.inRange, fun id hnode => ?_, fun store hstore => by cases hstore⟩
    refine (hfiled.sidecar id hnode).imp rfl rfl fun listed blocks hlisted haccount => .inl ?_
    rcases haccount with hholds | ⟨store, hstore, -, hsize⟩
    · exact hholds
    · obtain ⟨other, rfl, hlists⟩ := hfiled.store store hstore
      exact absurd (hlisted ▸ hlists.size_eq) hsize

/-- Nothing is listed for an entry that has never been used. -/
theorem Untouched.listed (h : storage.Untouched entry) (size : Nat) :
    entry.listed (storage.prepare entry).files size = [] := by
  obtain ⟨error, herror⟩ : ∃ error,
      (storage.prepare entry).files.bytesOf entry.sidecarPath = .error error :=
    FileTree.bytesOf_of_absent h.noSidecar
  rw [CacheEntry.listed, herror]
  rfl

/-- The first store of an entry has no blocks. -/
theorem Untouched.openStore (h : storage.Untouched entry) {size : Nat}
    (hopen : (storage.openStore entry size).1.isSome = true) :
    (storage.openStore entry size).1 = some entry.key ∧
      ∃ store, (storage.openStore entry size).2.store? entry.key = some store ∧
        store.size = size ∧ store.filled = [] := by
  unfold Storage.openStore at hopen ⊢
  rw [h.closed] at hopen ⊢
  dsimp only at hopen ⊢
  unfold openNew at hopen ⊢
  by_cases husable : (storage.prepare entry).files.isUsableDirectory entry.directory = true
  · rw [if_pos husable] at hopen ⊢
    cases hfile : (storage.prepare entry).files.openFile entry.dataPath with
    | error error =>
      rw [hfile] at hopen
      cases hopen
    | ok result =>
      obtain ⟨data, files⟩ := result
      rw [addStore]
      refine ⟨rfl, _, store?_cons _ _, rfl, ?_⟩
      dsimp only
      rw [h.listed size]
  · simp [if_neg husable] at hopen

/-! ### Operations -/

theorem sound_setStore (hold : storage.store? entry.key = some store) {store' : BlockStore}
    {data : FileId} {home : List String}
    (h : entry.Filed known storage.files (some store') data home) :
    (storage.setStore entry.key store').Sound entry known := by
  right
  refine ⟨data, home, ?_⟩
  rw [store?_setStore hold]
  exact h

theorem usage_setStore (hold : storage.store? entry.key = some store) (store' : BlockStore) :
    (storage.setStore entry.key store').usage entry = some (store'.size, store'.holders) := by
  rw [usage, store?_setStore hold]
  rfl

theorem usage_eq (h : storage.store? entry.key = some store) :
    storage.usage entry = some (store.size, store.holders) := by
  rw [usage, h]
  rfl

/-- What may come of opening a store for a content: it is refused and the users stay as they were,
or there is one more user of a store for the size of the content. -/
structure Opened (entry : CacheEntry) (known : Bytes → Prop) (content : Bytes) (storage : Storage)
    (result : Option FilePath.Key × Storage) : Prop where
  sound : result.2.Sound entry known
  users : (result.1 = none ∧ result.2.usage entry = storage.usage entry) ∨
    (result.1 = some entry.key ∧
      ((storage.usage entry = none ∧ result.2.usage entry = some (content.length, 1)) ∨
        ∃ n, storage.usage entry = some (content.length, n) ∧
          result.2.usage entry = some (content.length, n + 1)))

/-- To make the directory of an entry does no harm. -/
theorem Sound.prepare (h : storage.Sound entry known) (hclosed : storage.store? entry.key = none) :
    (storage.prepare entry).Sound entry known := by
  rcases h with huntouched | ⟨data, home, hfiled⟩
  · exact .inl huntouched.prepare
  · rw [hclosed] at hfiled
    refine .inr ⟨data, home, ?_⟩
    change entry.Filed known _ (storage.store? entry.key) data home
    rw [hclosed]
    exact hfiled.makeDirectories entry.directory

/-- The data file of an entry is opened or made, and lists nothing that is not there. -/
theorem Sound.openFile (h : storage.Sound entry known) (hclosed : storage.store? entry.key = none)
    (hapart : CacheEntry.Apart known) (hknown : known content) {data : FileId} {files : FileTree}
    (hopen : (storage.prepare entry).files.openFile entry.dataPath = .ok (data, files)) :
    ∃ home, entry.Filed known files none data home ∧
      ∀ index ∈ entry.listed (storage.prepare entry).files content.length,
        files.Holds data content index := by
  rcases h with huntouched | ⟨id, home, hfiled⟩
  · obtain ⟨home, hnew⟩ := huntouched.openFile hopen
    refine ⟨home, hnew, fun index hindex => ?_⟩
    simp [huntouched.listed] at hindex
  · rw [hclosed] at hfiled
    have hprepared : entry.Filed known (storage.prepare entry).files none id home :=
      hfiled.makeDirectories entry.directory
    rw [FileTree.openFile_of_locate hprepared.dataPlace hprepared.dataNode] at hopen
    cases hopen
    refine ⟨home, hprepared, ?_⟩
    rw [CacheEntry.listed]
    cases hbytes : (storage.prepare entry).files.bytesOf entry.sidecarPath with
    | error error =>
      intro index hindex
      cases hindex
    | ok bytes =>
      rw [BlockStore.Sidecar.listed]
      cases hfound : BlockStore.Sidecar.decode? entry.path content.length bytes with
      | none =>
        intro index hindex
        cases hindex
      | some found => exact hprepared.holds_of_listed hapart hknown hbytes hfound

/-- A store that is opened can be trusted. -/
theorem opened_openStore (h : storage.Sound entry known) (hapart : CacheEntry.Apart known)
    (hknown : known content) :
    Opened entry known content storage (storage.openStore entry content.length) := by
  unfold openStore
  cases hopen : storage.store? entry.key with
  | some store =>
    obtain ⟨data, home, hfiled⟩ := h.filed hopen
    dsimp only
    split
    · next hsize =>
      constructor
      · apply sound_setStore hopen
        exact hfiled.change (fun _ hindex => hindex) (Nat.succ_ne_zero _)
      · right
        refine ⟨rfl, .inr ⟨store.holders, ?_, ?_⟩⟩
        · rw [usage_eq hopen, hsize]
        · rw [← hsize]
          apply usage_setStore hopen
    · exact ⟨h, .inl ⟨rfl, rfl⟩⟩
  | none =>
    have hprepared := h.prepare hopen
    have hsame : (storage.prepare entry).usage entry = storage.usage entry := rfl
    dsimp only
    unfold openNew
    split
    · cases hfile : (storage.prepare entry).files.openFile entry.dataPath with
      | error error => exact ⟨hprepared, .inl ⟨rfl, hsame⟩⟩
      | ok result =>
        obtain ⟨data, files⟩ := result
        obtain ⟨home, hfiled, hlisted⟩ := h.openFile hopen hapart hknown hfile
        rw [addStore]
        constructor
        · refine .inr ⟨data, home, ?_⟩
          dsimp only
          rw [store?_cons]
          exact hfiled.openStore hknown hlisted
        · right
          refine ⟨rfl, .inl ⟨?_, ?_⟩⟩
          · rw [usage, hopen]
            rfl
          · rw [usage]
            dsimp only
            rw [store?_cons]
            rfl
    · exact ⟨hprepared, .inl ⟨rfl, hsame⟩⟩

/-! ### Operations and their fates

A device that does not fail is one that may; what is shown of the operations on any device holds of the
operations on this one. -/

theorem loadBlockAs_usual (storage : Storage) (key : FilePath.Key) (index : Nat) :
    storage.loadBlockAs false key index = storage.loadBlock key index := rfl

theorem saveBlockAs_whole (storage : Storage) (key : FilePath.Key) (index : Nat) (data : Bytes) :
    storage.saveBlockAs .whole key index data = storage.saveBlock key index data := by
  unfold saveBlockAs saveBlock
  cases storage.store? key with
  | none => rfl
  | some store =>
    dsimp only [FileTree.writeAs]
    cases storage.files.writeAt store.data (store.grid.start index) data with
    | error error => rfl
    | ok files => rfl

theorem saveSidecarAs_whole (storage : Storage) (key : FilePath.Key) :
    storage.saveSidecarAs .whole key = storage.saveSidecar key := by
  unfold saveSidecarAs saveSidecar
  cases storage.store? key with
  | none => rfl
  | some store =>
    dsimp only [FileTree.writeAs]
    cases storage.files.writeFile store.sidecarPath
        (BlockStore.Sidecar.encode store.path store.size store.filled) with
    | error error => rfl
    | ok files => rfl

theorem releaseAs_whole (storage : Storage) (key : FilePath.Key) :
    storage.releaseAs .whole key = storage.release key := by
  unfold releaseAs release
  rw [saveSidecarAs_whole]

theorem openStoreAs_usual (storage : Storage) (entry : CacheEntry) (size : Nat) :
    storage.openStoreAs .usual entry size = storage.openStore entry size := by
  unfold openStoreAs
  cases storage.store? entry.key with
  | none => rfl
  | some store => rfl

theorem loadBlockAs_of_none (hnone : storage.store? key = none) (unreadable : Bool) (index : Nat) :
    storage.loadBlockAs unreadable key index = (none, storage) := by
  cases unreadable with
  | true =>
    unfold loadBlockAs
    rw [hnone]
  | false =>
    rw [loadBlockAs_usual, loadBlock, hnone]

theorem saveBlockAs_of_none (hnone : storage.store? key = none) (fate : FileTree.WriteFate)
    (index : Nat) (data : Bytes) : storage.saveBlockAs fate key index data = storage := by
  rw [saveBlockAs, hnone]

/-- What comes of loading a block: it is listed and read, or it is not listed, or it is no longer
listed. -/
theorem loadBlockAs_cases (hstore : storage.store? key = some store) (unreadable : Bool)
    (index : Nat) :
    (∃ data, index ∈ store.filled ∧
        storage.files.readAt store.data (store.grid.start index) (store.grid.width index) =
          .ok data ∧
        storage.loadBlockAs unreadable key index = (some data, storage)) ∨
      (index ∉ store.filled ∧ storage.loadBlockAs unreadable key index = (none, storage)) ∨
      storage.loadBlockAs unreadable key index =
        (none, storage.setStore key { store with filled := store.filled.erase index }) := by
  cases unreadable with
  | true =>
    right
    right
    unfold loadBlockAs
    rw [hstore]
  | false =>
    rw [loadBlockAs_usual]
    unfold loadBlock
    rw [hstore]
    dsimp only
    by_cases hmem : index ∈ store.filled
    · rw [if_pos hmem]
      cases hread : storage.files.readAt store.data (store.grid.start index)
          (store.grid.width index) with
      | error error => exact .inr (.inr rfl)
      | ok data =>
        dsimp only
        split
        · exact .inl ⟨data, hmem, rfl, rfl⟩
        · exact .inr (.inr rfl)
    · rw [if_neg hmem]
      exact .inr (.inl ⟨hmem, rfl⟩)

/-- What comes of saving a block: it is written and listed, or not written at all, or written in part and
not listed. -/
theorem saveBlockAs_cases (hstore : storage.store? key = some store) (fate : FileTree.WriteFate)
    (index : Nat) (data : Bytes) :
    (∃ files, storage.files.writeAt store.data (store.grid.start index) data = .ok files ∧
        storage.saveBlockAs fate key index data = { storage with files }.setStore key
          { store with
            filled := BlockStore.BlockSet.insert index store.filled, unsaved := true }) ∨
      storage.saveBlockAs fate key index data = storage ∨
      ∃ error n files, fate = .cut error n ∧
        storage.files.writeAt store.data (store.grid.start index) (data.take n) = .ok files ∧
        storage.saveBlockAs fate key index data = { storage with files } := by
  unfold saveBlockAs
  rw [hstore]
  dsimp only
  rcases storage.files.writeAs_cases (storage.files.writeAt store.data (store.grid.start index)) data
    fate with ⟨files, -, hwrite, hrun⟩ | ⟨error, -, hrun⟩ | ⟨error, n, files, hfate, hwrite, hrun⟩
  · exact .inl ⟨files, hwrite, by rw [hrun]⟩
  · exact .inr (.inl (by rw [hrun]))
  · exact .inr (.inr ⟨error, n, files, hfate, hwrite, by rw [hrun]⟩)

/-- What comes of writing a sidecar: its text is written, or it is not written at all, or a part of it
is written. -/
theorem saveSidecarAs_cases (hstore : storage.store? key = some store)
    (fate : FileTree.WriteFate) :
    ∃ text, text = BlockStore.Sidecar.encode store.path store.size store.filled ∧
      ((∃ files, storage.files.writeFile store.sidecarPath text = .ok files ∧
          (storage.saveSidecarAs fate key).2 =
            { storage with files }.setStore key { store with unsaved := false }) ∨
        ((storage.saveSidecarAs fate key).2 = storage ∧
          ((∃ error, fate = .refused error) ∨
            ∃ n error, storage.files.writeFile store.sidecarPath (text.take n) = .error error)) ∨
        ∃ n files, storage.files.writeFile store.sidecarPath (text.take n) = .ok files ∧
          (storage.saveSidecarAs fate key).2 = { storage with files }) := by
  refine ⟨_, rfl, ?_⟩
  unfold saveSidecarAs
  rw [hstore]
  dsimp only
  rcases storage.files.writeAs_cases (storage.files.writeFile store.sidecarPath)
    (BlockStore.Sidecar.encode store.path store.size store.filled) fate with
    ⟨files, -, hwrite, hrun⟩ | ⟨error, hwhy, hrun⟩ | ⟨error, n, files, -, hwrite, hrun⟩
  · exact .inl ⟨files, hwrite, by rw [hrun]⟩
  · exact .inr (.inl ⟨by rw [hrun], hwhy⟩)
  · exact .inr (.inr ⟨n, files, hwrite, by rw [hrun]⟩)

/-- To unlist the blocks of a store changes nothing for its users. -/
theorem usage_unlist (storage : Storage) (entry : CacheEntry) :
    (storage.unlist entry.key).usage entry = storage.usage entry := by
  unfold unlist
  cases hstore : storage.store? entry.key with
  | none => rfl
  | some store => exact (usage_setStore hstore _).trans (usage_eq hstore).symm

theorem Sound.unlist (h : storage.Sound entry known) :
    (storage.unlist entry.key).Sound entry known := by
  unfold Storage.unlist
  cases hstore : storage.store? entry.key with
  | none => exact h
  | some store =>
    obtain ⟨data, home, hfiled⟩ := h.filed hstore
    obtain ⟨_, _, hlists⟩ := hfiled.store store rfl
    exact sound_setStore hstore
      (hfiled.change (fun _ hindex => absurd hindex (List.not_mem_nil)) hlists.held)

/-- Whatever fails, a store that is opened can be trusted. -/
theorem opened_openStoreAs (h : storage.Sound entry known) (hapart : CacheEntry.Apart known)
    (hknown : known content) (fate : OpenFate) :
    Opened entry known content storage (storage.openStoreAs fate entry content.length) := by
  have husual := opened_openStore h hapart hknown
  unfold openStoreAs
  cases hopen : storage.store? entry.key with
  | some store => exact husual
  | none =>
    cases fate with
    | usual => exact husual
    | noDirectory => exact ⟨h, .inl ⟨rfl, rfl⟩⟩
    | noSidecar =>
      refine ⟨husual.sound.unlist, ?_⟩
      dsimp only
      rw [usage_unlist]
      exact husual.users
    | noDataFile => exact ⟨h.prepare hopen, .inl ⟨rfl, rfl⟩⟩

/-! ### Stores that serve a content -/

/-- A store is open for a content and lists no block that its data file does not have. -/
def Serving (storage : Storage) (entry : CacheEntry) (content : Bytes) : Prop :=
  ∃ store data, storage.store? entry.key = some store ∧ data < storage.files.contents.length ∧
    entry.Lists storage.files data content store

/-- The blocks of a store are those of its content. -/
theorem grid_of_lists {files : FileTree} {data : FileId}
    (h : entry.Lists files data content store) : store.grid = BlockStore.gridOf content := by
  rw [BlockStore.grid, h.size_eq, BlockStore.gridOf]

namespace Serving

/-- What is loaded is the block of the content, whatever becomes of reading it. -/
theorem loadBlockAs (h : storage.Serving entry content) (unreadable : Bool) (index : Nat) :
    (storage.loadBlockAs unreadable entry.key index).2.Serving entry content ∧
      ∀ data, (storage.loadBlockAs unreadable entry.key index).1 = some data →
        data = BlockStore.blockOf content index := by
  have hserving := h
  obtain ⟨store, data, hstore, hdata, hlists⟩ := h
  rcases loadBlockAs_cases hstore unreadable index with
    ⟨found, hmem, hread, hrun⟩ | ⟨-, hrun⟩ | hrun
  · rw [hrun]
    refine ⟨hserving, fun found' hfound => ?_⟩
    cases hfound
    rw [grid_of_lists hlists, hlists.data_eq] at hread
    exact Except.ok.inj (hread.symm.trans (hlists.filled index hmem))
  · rw [hrun]
    exact ⟨hserving, fun found hfound => by cases hfound⟩
  · rw [hrun]
    refine ⟨⟨_, data, store?_setStore hstore, hdata, ?_⟩, fun found hfound => by cases hfound⟩
    exact hlists.change (fun other hother => (List.mem_filter.mp hother).1) hlists.held

/-- A block of the content may be saved, whatever becomes of writing it. -/
theorem saveBlockAs (h : storage.Serving entry content) (fate : FileTree.WriteFate) (index : Nat) :
    (storage.saveBlockAs fate entry.key index (BlockStore.blockOf content index)).Serving entry
      content := by
  have hserving := h
  obtain ⟨store, data, hstore, hdata, hlists⟩ := h
  have hlength {files : FileTree} {part : Bytes}
      (hwrite : storage.files.writeAt data ((BlockStore.gridOf content).start index) part =
        .ok files) : data < files.contents.length := by
    obtain rfl := FileTree.writeAt_eq_ok hwrite
    exact Nat.lt_of_lt_of_eq hdata List.length_set.symm
  have hkept (files : FileTree) : ({ storage with files } : Storage).store? entry.key = some store :=
    hstore
  rcases saveBlockAs_cases hstore fate index (BlockStore.blockOf content index) with
    ⟨files, hwrite, hrun⟩ | hrun | ⟨error, n, files, -, hwrite, hrun⟩
  · rw [hrun]
    rw [grid_of_lists hlists, hlists.data_eq] at hwrite
    refine ⟨_, data, store?_setStore (hkept files), hlength hwrite, ?_⟩
    apply hlists.writeBlock hdata List.prefix_rfl hwrite
    intro block hblock
    exact (BlockStore.BlockSet.mem_insert.mp hblock).symm.imp_right fun heq => ⟨heq, rfl⟩
  · rw [hrun]
    exact hserving
  · rw [hrun]
    rw [grid_of_lists hlists, hlists.data_eq] at hwrite
    refine ⟨store, data, hstore, hlength hwrite, ?_⟩
    exact hlists.writeBlock hdata (List.take_prefix n _) hwrite fun _ hblock => .inl hblock

end Serving

/-- A store is open for a content and has `users` users. -/
structure InUse (storage : Storage) (entry : CacheEntry) (known : Bytes → Prop) (content : Bytes)
    (users : Nat) : Prop where
  sound : storage.Sound entry known
  usage_eq : storage.usage entry = some (content.length, users)

namespace InUse

variable {users : Nat}

/-- The store that is in use, with all that is right about it. -/
theorem exists_store (h : storage.InUse entry known content users) :
    ∃ store data home, storage.store? entry.key = some store ∧ store.size = content.length ∧
      store.holders = users ∧ entry.Filed known storage.files (some store) data home := by
  have husage := h.usage_eq
  rw [usage] at husage
  obtain ⟨store, hstore, heq⟩ := Option.map_eq_some_iff.mp husage
  obtain ⟨hsize, husers⟩ := Prod.mk.inj heq
  obtain ⟨data, home, hfiled⟩ := h.sound.filed hstore
  exact ⟨store, data, home, hstore, hsize, husers, hfiled⟩

/-- A store that is changed without changing hands. -/
theorem setStore {data : FileId} {home : List String} {store' : BlockStore}
    (hold : storage.store? entry.key = some store)
    (h : entry.Filed known storage.files (some store') data home)
    (hsize : store'.size = content.length) (husers : store'.holders = users) :
    (storage.setStore entry.key store').InUse entry known content users where
  sound := sound_setStore hold h
  usage_eq := by rw [usage_setStore hold, hsize, husers]

/-- A store in use serves its content. -/
theorem serving (h : storage.InUse entry known content users) (hapart : CacheEntry.Apart known)
    (hknown : known content) : storage.Serving entry content := by
  obtain ⟨store, data, home, hstore, hsize, -, hfiled⟩ := h.exists_store
  obtain ⟨other, hother, hlists⟩ := hfiled.store store rfl
  obtain rfl := hapart content other hknown hother (hsize.symm.trans hlists.size_eq)
  exact ⟨store, data, hstore, hfiled.inRange, hlists⟩

/-- To load a block does no harm. -/
theorem loadBlockAs (h : storage.InUse entry known content users) (unreadable : Bool)
    (index : Nat) :
    (storage.loadBlockAs unreadable entry.key index).2.InUse entry known content users := by
  obtain ⟨store, data, home, hstore, hsize, husers, hfiled⟩ := h.exists_store
  rcases loadBlockAs_cases hstore unreadable index with ⟨_, -, -, hrun⟩ | ⟨-, hrun⟩ | hrun
  · rw [hrun]
    exact h
  · rw [hrun]
    exact h
  · rw [hrun]
    obtain ⟨_, _, hlists⟩ := hfiled.store store rfl
    have hfewer : ∀ other ∈ store.filled.erase index, other ∈ store.filled :=
      fun other hother => (List.mem_filter.mp hother).1
    exact setStore hstore (hfiled.change hfewer hlists.held) hsize husers

/-- A block of the content may be saved.  If it is left half written, there must be no other content
of which the sidecar may list it. -/
theorem saveBlockAs (h : storage.InUse entry known content users) (hapart : CacheEntry.Apart known)
    (hknown : known content) {fate : FileTree.WriteFate}
    (hfate : fate.IsAtomic ∨ CacheEntry.Single known) (index : Nat) :
    (storage.saveBlockAs fate entry.key index (BlockStore.blockOf content index)).InUse entry known
      content users := by
  obtain ⟨store, data, home, hstore, hsize, husers, hfiled⟩ := h.exists_store
  obtain ⟨_, _, hlists⟩ := hfiled.store store rfl
  have hgrid : store.grid = BlockStore.gridOf content := by
    rw [BlockStore.grid, hsize, BlockStore.gridOf]
  have hkept (files : FileTree) : ({ storage with files } : Storage).store? entry.key = some store :=
    hstore
  rcases saveBlockAs_cases hstore fate index (BlockStore.blockOf content index) with
    ⟨files, hwrite, hrun⟩ | hrun | ⟨error, n, files, rfl, hwrite, hrun⟩
  · rw [hrun]
    rw [hgrid, hlists.data_eq] at hwrite
    have hfilled : ∀ block ∈ BlockStore.BlockSet.insert index store.filled, block ∈ store.filled ∨
        block = index ∧ BlockStore.blockOf content index = BlockStore.blockOf content index :=
      fun block hblock =>
        (BlockStore.BlockSet.mem_insert.mp hblock).symm.imp_right fun heq => ⟨heq, rfl⟩
    have hwritten := hfiled.writeBlock hapart hknown hsize List.prefix_rfl hwrite hfilled (.inl rfl)
    exact setStore (hkept files) hwritten hsize husers
  · rw [hrun]
    exact h
  · rw [hrun]
    rw [hgrid, hlists.data_eq] at hwrite
    rcases hfate with hnothing | hsingle
    · obtain rfl : n = 0 := hnothing
      rw [FileTree.writeAt_nil hfiled.inRange hwrite]
      exact h
    · refine ⟨.inr ⟨data, home, ?_⟩, h.usage_eq⟩
      rw [hkept files]
      exact hfiled.writeBlock hapart hknown hsize (List.take_prefix n _) hwrite
        (fun _ hblock => .inl hblock) (.inr ⟨rfl, hsingle⟩)

/-- The sidecar may be saved at any time. -/
theorem saveSidecarAs (h : storage.InUse entry known content users) (fate : FileTree.WriteFate) :
    (storage.saveSidecarAs fate entry.key).2.InUse entry known content users := by
  obtain ⟨store, data, home, hstore, hsize, husers, hfiled⟩ := h.exists_store
  have hkept (files : FileTree) : ({ storage with files } : Storage).store? entry.key = some store :=
    hstore
  obtain ⟨text, rfl, ⟨files, hwrite, hrun⟩ | ⟨hrun, -⟩ | ⟨n, files, hwrite, hrun⟩⟩ :=
    saveSidecarAs_cases hstore fate
  · rw [hrun]
    rw [← List.take_length (l := BlockStore.Sidecar.encode _ _ _)] at hwrite
    exact setStore (hkept files) (hfiled.writeSidecar hwrite false) hsize husers
  · rw [hrun]
    exact h
  · rw [hrun]
    refine ⟨.inr ⟨data, home, ?_⟩, h.usage_eq⟩
    rw [hkept files]
    exact hfiled.writeSidecar hwrite store.unsaved

/-- One of several users may leave. -/
theorem releaseAs_of_lt (h : storage.InUse entry known content users) (husers : 1 < users)
    (fate : FileTree.WriteFate) :
    (storage.releaseAs fate entry.key).InUse entry known content (users - 1) := by
  obtain ⟨store, data, home, hstore, hsize, rfl, hfiled⟩ := h.exists_store
  unfold releaseAs
  rw [hstore]
  dsimp only
  rw [if_pos husers]
  exact setStore hstore (hfiled.change (fun _ hindex => hindex) (by omega)) hsize rfl

/-- With the last user the store is closed.  Its sidecar is up to date then or breaks off, unless
something that is not a file stands in its place.  If it is refused, there must be no other content
for which there may be one. -/
theorem releaseAs_last (h : storage.InUse entry known content users) (husers : users ≤ 1)
    {fate : FileTree.WriteFate}
    (hfate : (∀ error, fate ≠ .refused error) ∨ CacheEntry.Single known) :
    (storage.releaseAs fate entry.key).Sound entry known ∧
      (storage.releaseAs fate entry.key).usage entry = none := by
  obtain ⟨store, data, home, hstore, -, rfl, hfiled⟩ := h.exists_store
  have hclosed (saved : Storage) (hsaved : entry.Filed known saved.files none data home) :
      Sound { saved with stores := saved.stores.filter (·.1 ≠ entry.key) } entry known ∧
        usage { saved with stores := saved.stores.filter (·.1 ≠ entry.key) } entry = none := by
    have hnone := store?_filter entry.key saved.files saved.stores
    refine ⟨.inr ⟨data, home, ?_⟩, ?_⟩
    · rw [hnone]
      exact hsaved
    · rw [usage, hnone]
      rfl
  unfold releaseAs
  rw [hstore]
  dsimp only
  rw [if_neg (Nat.not_lt.mpr husers)]
  apply hclosed
  cases hunsaved : store.unsaved with
  | false =>
    rw [if_neg (by decide)]
    exact hfiled.close (.inl hunsaved)
  | true =>
    rw [if_pos rfl]
    obtain ⟨text, rfl, ⟨files, hwrite, hrun⟩ | ⟨hrun, hwhy⟩ | ⟨n, files, hwrite, hrun⟩⟩ :=
      saveSidecarAs_cases hstore fate
    · rw [hrun]
      rw [← List.take_length (l := BlockStore.Sidecar.encode _ _ _)] at hwrite
      exact (hfiled.writeSidecar hwrite false).close (.inl rfl)
    · rw [hrun]
      apply hfiled.close
      right
      rcases hwhy with ⟨error, hrefused⟩ | ⟨n, error, hwrite⟩
      · exact .inr (hfate.resolve_left fun hkept => hkept error hrefused)
      · exact .inl (hfiled.not_file_of_writeFile_error hwrite)
    · rw [hrun]
      exact (hfiled.writeSidecar hwrite false).close (.inl rfl)

/-- Where nothing fails, a use of the store may be given up at any time. -/
theorem sound_release (h : storage.InUse entry known content users) :
    (storage.release entry.key).Sound entry known := by
  rw [← releaseAs_whole]
  by_cases husers : 1 < users
  · exact (h.releaseAs_of_lt husers .whole).sound
  · exact (h.releaseAs_last (Nat.not_lt.mp husers) (.inl fun _ hrefused => by cases hrefused)).1

end InUse

end PspBoot.Storage
