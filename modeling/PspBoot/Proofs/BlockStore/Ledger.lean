import PspBoot.Proofs.BlockStore.DataFile
import PspBoot.Proofs.BlockStore.Storage
import PspBoot.Proofs.Storage.Directory

/-!
# Ledgers

A `Ledger` is a cache entry without the file system around it: what is in the data file, what the
sidecar file says, and the store that is open on them.  `storage.Keeps entry home ledger` says that
the storage has the entry as the ledger says, with its files in the directory `home`.

Each operation of a store has its counterpart on ledgers, and comes to it (`Keeps.loadBlock`,
`Keeps.saveBlock`, `Keeps.saveSidecar`, `Keeps.release`, `Keeps.openStore`).  What is to be shown of
an entry in the long run is shown of ledgers, where no file operation can fail but a write behind
the greatest offset of a file.
-/

namespace PspBoot

/-- What a sidecar file says. -/
structure BlockStore.Label where
  path : String
  size : Nat
  blocks : BlockStore.BlockSet

/-- The bytes of a sidecar file. -/
def BlockStore.Label.encode (label : BlockStore.Label) : Bytes :=
  BlockStore.Sidecar.encode label.path label.size label.blocks

/-- What a store writes to its sidecar file. -/
def BlockStore.label (store : BlockStore) : BlockStore.Label where
  path := store.path
  size := store.size
  blocks := store.filled

/-- The files of a cache entry and the store that is open on them. -/
structure Ledger where
  /-- The number of the data file. -/
  data : FileId
  file : FileContent := {}
  label? : Option BlockStore.Label := none
  store? : Option BlockStore := none

namespace Ledger

open BlockStore

/-- The blocks that the sidecar file lists for a path and a size. -/
def listed (ledger : Ledger) (path : String) (size : Nat) : BlockSet :=
  match ledger.label? with
  | none => []
  | some label => Sidecar.listed path size (.ok label.encode)

/-- The sidecar file that a store wrote lists its blocks for its path and its size. -/
theorem mem_listed_of_label {ledger : Ledger} {path : String} {size index : Nat} {blocks : BlockSet}
    (hlabel : ledger.label? = some { path, size, blocks }) (hsize : size < UInt64.size)
    (hblocks : ∀ index ∈ blocks, index ≤ Sidecar.lastBlock size) :
    index ∈ ledger.listed path size ↔ index ∈ blocks := by
  rw [listed, hlabel]
  exact Sidecar.mem_listed_encode_iff hsize hblocks

/-- The store is opened for a source, or shared if it is open for the same size. -/
def openStore (ledger : Ledger) (entry : CacheEntry) (size : Nat) : Option FilePath.Key × Ledger :=
  match ledger.store? with
  | some store =>
      if store.size = size then
        (some entry.key, { ledger with store? := some { store with holders := store.holders + 1 } })
      else
        (none, ledger)
  | none =>
      let store : BlockStore :=
        { data := ledger.data, path := entry.path, sidecarPath := entry.sidecarPath, size
          filled := ledger.listed entry.path size }
      (some entry.key, { ledger with store? := some store })

/-- A listed block is read, or struck off the list if the data file does not have it in full. -/
def loadBlock (ledger : Ledger) (index : Nat) : Option Bytes × Ledger :=
  match ledger.store? with
  | none => (none, ledger)
  | some store =>
      if index ∈ store.filled then
        if ledger.file.HasBlock store.size index then
          (some (ledger.file.read (store.grid.start index) (store.grid.width index)), ledger)
        else
          (none, { ledger with store? := some { store with filled := store.filled.erase index } })
      else
        (none, ledger)

/-- A block is written and listed. -/
def saveBlock (ledger : Ledger) (index : Nat) (block : Bytes) : Ledger :=
  match ledger.store? with
  | none => ledger
  | some store =>
      if FileTree.maxFileSize < store.grid.start index + block.length then
        ledger
      else
        { ledger with
          file := ledger.file.write (store.grid.start index) block
          store? := some
            { store with filled := BlockSet.insert index store.filled, unsaved := true } }

/-- The sidecar file is written. -/
def saveSidecar (ledger : Ledger) : Ledger :=
  match ledger.store? with
  | none => ledger
  | some store =>
      { ledger with label? := some store.label, store? := some { store with unsaved := false } }

/-- One user gives up the store, which is closed with the last of them. -/
def release (ledger : Ledger) : Ledger :=
  match ledger.store? with
  | none => ledger
  | some store =>
      if 1 < store.holders then
        { ledger with store? := some { store with holders := store.holders - 1 } }
      else
        { (if store.unsaved then ledger.saveSidecar else ledger) with store? := none }

section Blocks

variable {ledger : Ledger} {store : BlockStore} {size index : Nat} {block : Bytes}

theorem loadBlock_of_not_mem (hopen : ledger.store? = some store) (hfree : index ∉ store.filled) :
    ledger.loadBlock index = (none, ledger) := by
  rw [loadBlock, hopen]
  dsimp only
  rw [if_neg hfree]

theorem loadBlock_of_hasBlock (hopen : ledger.store? = some store) (hsize : store.size = size)
    (hlisted : index ∈ store.filled) (hhas : ledger.file.HasBlock size index) :
    ledger.loadBlock index =
      (some (ledger.file.read ((gridFor size).start index) ((gridFor size).width index)),
        ledger) := by
  subst hsize
  rw [loadBlock, hopen]
  dsimp only
  rw [if_pos hlisted, if_pos hhas, grid_eq]

theorem loadBlock_of_not_hasBlock (hopen : ledger.store? = some store) (hsize : store.size = size)
    (hlisted : index ∈ store.filled) (hshort : ¬ledger.file.HasBlock size index) :
    ledger.loadBlock index =
      (none, { ledger with store? := some { store with filled := store.filled.erase index } }) := by
  subst hsize
  rw [loadBlock, hopen]
  dsimp only
  rw [if_pos hlisted, if_neg hshort]

/-- A whole block is written and listed if the data file can hold it. -/
theorem saveBlock_of_storable (hopen : ledger.store? = some store) (hsize : store.size = size)
    (hfull : block.length = (gridFor size).width index) (hstorable : Storable size index) :
    ledger.saveBlock index block =
      { ledger with
        file := ledger.file.write ((gridFor size).start index) block
        store? := some
          { store with filled := BlockSet.insert index store.filled, unsaved := true } } := by
  subst hsize
  rw [saveBlock, hopen]
  dsimp only
  rw [grid_eq, hfull, if_neg (Nat.not_lt.mpr hstorable)]

/-- Otherwise it is left out. -/
theorem saveBlock_of_not_storable (hopen : ledger.store? = some store) (hsize : store.size = size)
    (hfull : block.length = (gridFor size).width index) (hstorable : ¬Storable size index) :
    ledger.saveBlock index block = ledger := by
  subst hsize
  rw [saveBlock, hopen]
  dsimp only
  rw [grid_eq, hfull, if_pos (Nat.lt_of_not_le hstorable)]

end Blocks

end Ledger

namespace CacheEntry

variable {entry : CacheEntry} {files files' : FileTree} {home : List String} {ledger : Ledger}

/-- What the sidecar file of an entry says. -/
def SidecarSays (entry : CacheEntry) (files : FileTree) (home : List String) (data : FileId) :
    Option BlockStore.Label → Prop
  | none => files.node? (entry.sidecarPlace home) = none
  | some label => ∃ id, files.node? (entry.sidecarPlace home) = some (.file id) ∧ id ≠ data ∧
      id < files.contents.length ∧ (files.content id).toBytes = label.encode

/-- What is listed for an entry depends on what its sidecar file says alone. -/
theorem listed_eq_of_says (hplace : files.locate entry.sidecarPath = .ok (entry.sidecarPlace home))
    {data : FileId} (h : entry.SidecarSays files home data ledger.label?) (size : Nat) :
    entry.listed files size = ledger.listed entry.path size := by
  rw [listed, Ledger.listed]
  cases hlabel : ledger.label? with
  | none =>
    rw [hlabel] at h
    have habsent : files.pathExists entry.sidecarPath = false := by
      rw [FileTree.pathExists_of_locate hplace, h]
      rfl
    obtain ⟨error, herror⟩ := FileTree.bytesOf_of_absent habsent
    rw [herror]
    rfl
  | some label =>
    rw [hlabel] at h
    obtain ⟨id, hnode, -, -, hbytes⟩ := h
    rw [FileTree.bytesOf_of_locate hplace hnode, hbytes]

/-- The files of an entry are as a ledger says. -/
structure Stands (entry : CacheEntry) (files : FileTree) (home : List String) (ledger : Ledger) :
    Prop where
  usable : files.isUsableDirectory entry.directory = true
  dataPlace : files.locate entry.dataPath = .ok (entry.dataPlace home)
  sidecarPlace : files.locate entry.sidecarPath = .ok (entry.sidecarPlace home)
  dataNode : files.node? (entry.dataPlace home) = some (.file ledger.data)
  inRange : ledger.data < files.contents.length
  file_eq : files.content ledger.data = ledger.file
  sidecar : entry.SidecarSays files home ledger.data ledger.label?

/-- The bytes of the data file of an entry; none if there is no such file. -/
def dataBytes (entry : CacheEntry) (files : FileTree) : Bytes :=
  (files.bytesOf entry.dataPath).toOption.getD []

/-- The places at which the files of an entry stand. -/
def Owns (entry : CacheEntry) (home : List String) (place : Place) : Prop :=
  place = entry.dataPlace home ∨ place = entry.sidecarPlace home

namespace Stands

/-- Either there is no sidecar file, or there is one that says something. -/
theorem sidecar_cases (h : entry.Stands files home ledger) :
    (ledger.label? = none ∧ files.node? (entry.sidecarPlace home) = none) ∨
      ∃ label id, ledger.label? = some label ∧
        files.node? (entry.sidecarPlace home) = some (.file id) ∧ id ≠ ledger.data ∧
        id < files.contents.length ∧ (files.content id).toBytes = label.encode := by
  have hsays := h.sidecar
  cases hlabel : ledger.label? with
  | none =>
    rw [hlabel] at hsays
    exact .inl ⟨rfl, hsays⟩
  | some label =>
    rw [hlabel] at hsays
    obtain ⟨id, hid⟩ := hsays
    exact .inr ⟨label, id, rfl, hid⟩

theorem listed_eq (h : entry.Stands files home ledger) (size : Nat) :
    entry.listed files size = ledger.listed entry.path size :=
  listed_eq_of_says h.sidecarPlace h.sidecar size

/-- The bytes of the data file. -/
theorem bytesOf_dataPath (h : entry.Stands files home ledger) :
    files.bytesOf entry.dataPath = .ok ledger.file.toBytes := by
  rw [FileTree.bytesOf_of_locate h.dataPlace h.dataNode, h.file_eq]

/-- The data file with all that was written to it. -/
theorem file?_dataPath (h : entry.Stands files home ledger) :
    files.file? entry.dataPath = some ledger.file := by
  rw [FileTree.file?_of_locate h.dataPlace h.dataNode, h.file_eq]

theorem dataBytes_eq (h : entry.Stands files home ledger) :
    entry.dataBytes files = ledger.file.toBytes := by
  rw [dataBytes, h.bytesOf_dataPath]
  rfl

/-- What is said of the data file and the sidecar stays true as long as nothing is done to them. -/
theorem congr (h : entry.Stands files home ledger) (hgrows : files.Grows files')
    (hlength : files.contents.length ≤ files'.contents.length)
    (hfree : files.node? (entry.sidecarPlace home) = none →
      files'.node? (entry.sidecarPlace home) = none)
    (hcontent : ∀ place id, entry.Owns home place → files.node? place = some (.file id) →
      id < files.contents.length → files'.content id = files.content id) :
    entry.Stands files' home ledger where
  usable := hgrows.isUsableDirectory h.usable
  dataPlace := hgrows.locate h.dataPlace
  sidecarPlace := hgrows.locate h.sidecarPlace
  dataNode := hgrows _ _ h.dataNode
  inRange := Nat.lt_of_lt_of_le h.inRange hlength
  file_eq := (hcontent _ _ (.inl rfl) h.dataNode h.inRange).trans h.file_eq
  sidecar := by
    rcases h.sidecar_cases with ⟨hlabel, hnone⟩ | ⟨label, id, hlabel, hnode, hne, hid, hbytes⟩
    · rw [hlabel]
      exact hfree hnone
    · rw [hlabel]
      refine ⟨id, hgrows _ _ hnode, hne, Nat.lt_of_lt_of_le hid hlength, ?_⟩
      rw [hcontent _ _ (.inr rfl) hnode hid]
      exact hbytes

/-- What is open on the files does not matter to them. -/
theorem setStore (h : entry.Stands files home ledger) (open? : Option BlockStore) :
    entry.Stands files home { ledger with store? := open? } :=
  ⟨h.usable, h.dataPlace, h.sidecarPlace, h.dataNode, h.inRange, h.file_eq, h.sidecar⟩

/-- The data file is written to. -/
theorem writeAt (h : entry.Stands files home ledger) {offset : Nat} {block : Bytes}
    (hwrite : files.writeAt ledger.data offset block = .ok files') :
    entry.Stands files' home { ledger with file := ledger.file.write offset block } ∧
      files.AltersOnly (entry.Owns home) files' := by
  obtain rfl := FileTree.writeAt_eq_ok hwrite
  rw [h.file_eq]
  have halters : files.AltersOnly (entry.Owns home) _ :=
    .set (.inl rfl) h.dataNode (ledger.file.write offset block)
  refine ⟨?_, halters⟩
  constructor
  case usable => exact halters.grows.isUsableDirectory h.usable
  case dataPlace => exact halters.grows.locate h.dataPlace
  case sidecarPlace => exact halters.grows.locate h.sidecarPlace
  case dataNode => exact halters.grows _ _ h.dataNode
  case inRange => exact Nat.lt_of_lt_of_eq h.inRange List.length_set.symm
  case file_eq => exact FileTree.content_set_self _ h.inRange
  case sidecar =>
    rcases h.sidecar_cases with ⟨hlabel, hnone⟩ | ⟨label, id, hlabel, hnode, hne, hid, hbytes⟩
    · rw [hlabel]
      exact (FileTree.node?_contents _ _ _).trans hnone
    · rw [hlabel]
      refine ⟨id, halters.grows _ _ hnode, hne, Nat.lt_of_lt_of_eq hid List.length_set.symm, ?_⟩
      rw [FileTree.content_set_of_ne _ (Ne.symm hne)]
      exact hbytes

/-- The sidecar file is written, and made if there is none. -/
theorem writeSidecar (h : entry.Stands files home ledger) (label : BlockStore.Label) :
    ∃ files', files.writeFile entry.sidecarPath label.encode = .ok files' ∧
      entry.Stands files' home { ledger with label? := some label } ∧
      files.AltersOnly (entry.Owns home) files' := by
  have hnode : files.node? (entry.sidecarPlace home) = none ∨
      ∃ id, files.node? (entry.sidecarPlace home) = some (.file id) := by
    rcases h.sidecar_cases with ⟨-, hnone⟩ | ⟨old, id, -, hnode, -⟩
    · exact .inl hnone
    · exact .inr ⟨id, hnode⟩
  obtain ⟨files', hwrite⟩ := FileTree.writeFile_of_locate h.sidecarPlace hnode label.encode
  have halters : files.AltersOnly (entry.Owns home) files' :=
    .writeFile h.sidecarPlace (.inr rfl) hwrite
  refine ⟨files', hwrite, ?_, halters⟩
  obtain ⟨id, opened, hopen, rfl⟩ := FileTree.writeFile_eq_ok hwrite
  -- The sidecar is a file of its own, whether it was there or has just been made.
  have hopened : opened.node? (entry.sidecarPlace home) = some (.file id) ∧ id ≠ ledger.data ∧
      id < opened.contents.length ∧ ledger.data < opened.contents.length ∧
      opened.content ledger.data = files.content ledger.data := by
    obtain ⟨names, hplace, hcases⟩ := FileTree.openFile_eq_ok hopen
    rw [h.sidecarPlace] at hplace
    have hsame : Place.inside names = entry.sidecarPlace home := (Except.ok.inj hplace).symm
    rw [hsame] at hcases
    rcases hcases with ⟨hid, rfl⟩ | ⟨hfree, rfl, rfl⟩
    · rcases h.sidecar_cases with ⟨-, hnone⟩ | ⟨old, other, -, hother, hne, hrange, -⟩
      · rw [hnone] at hid
        cases hid
      · rw [hother] at hid
        cases hid
        exact ⟨hother, hne, hrange, h.inRange, rfl⟩
    · have hmade := FileTree.node?_addFile (hsame ▸ hfree) {}
      rw [hsame] at hmade
      refine ⟨hmade, Nat.ne_of_gt h.inRange, ?_, ?_, FileTree.content_addFile _ _ h.inRange⟩
      · simp [FileTree.addFile]
      · simpa [FileTree.addFile] using Nat.lt_succ_of_lt h.inRange
  obtain ⟨hid, hne, hrange, hdata, hsame⟩ := hopened
  constructor
  case usable => exact halters.grows.isUsableDirectory h.usable
  case dataPlace => exact halters.grows.locate h.dataPlace
  case sidecarPlace => exact halters.grows.locate h.sidecarPlace
  case dataNode => exact halters.grows _ _ h.dataNode
  case inRange => exact Nat.lt_of_lt_of_eq hdata List.length_set.symm
  case file_eq => rw [FileTree.content_set_of_ne _ hne, hsame, h.file_eq]
  case sidecar =>
    refine ⟨id, ?_, hne, Nat.lt_of_lt_of_eq hrange List.length_set.symm, ?_⟩
    · rw [FileTree.node?_contents]
      exact hid
    · rw [FileTree.content_set_self _ hrange, FileContent.toBytes_ofBytes]

end Stands

/-- There is room for the data file of an entry, but no data file.  There may be a sidecar file. -/
structure Vacant (entry : CacheEntry) (files : FileTree) (home : List String)
    (label? : Option BlockStore.Label) : Prop where
  usable : files.isUsableDirectory entry.directory = true
  dataPlace : files.locate entry.dataPath = .ok (entry.dataPlace home)
  sidecarPlace : files.locate entry.sidecarPath = .ok (entry.sidecarPlace home)
  dataFree : files.node? (entry.dataPlace home) = none
  sidecar : entry.SidecarSays files home files.contents.length label?

/-- The data file is made. -/
theorem Vacant.openFile {label? : Option BlockStore.Label} (h : entry.Vacant files home label?) :
    ∃ files', files.openFile entry.dataPath = .ok (files.contents.length, files') ∧
      entry.Stands files' home { data := files.contents.length, label? } ∧
      files.AltersOnly (entry.Owns home) files' := by
  obtain ⟨names, hnames⟩ : ∃ names, entry.dataPlace home = .inside names := ⟨_, rfl⟩
  have hlocate := h.dataPlace
  have hfree := h.dataFree
  rw [hnames] at hlocate hfree
  have hopen := FileTree.openFile_of_free hlocate hfree
  have halters : files.AltersOnly (entry.Owns home) _ := .openFile h.dataPlace (.inl rfl) hopen
  refine ⟨_, hopen, ?_, halters⟩
  constructor
  case usable => exact halters.grows.isUsableDirectory h.usable
  case dataPlace => exact halters.grows.locate h.dataPlace
  case sidecarPlace => exact halters.grows.locate h.sidecarPlace
  case dataNode =>
    rw [hnames]
    exact FileTree.node?_addFile hfree {}
  case inRange => simp [FileTree.addFile]
  case file_eq => simp [FileTree.content, FileTree.addFile]
  case sidecar =>
    have hsays := h.sidecar
    cases label? with
    | none =>
      have hne : entry.sidecarPlace home ≠ .inside names := hnames ▸ entry.sidecarPlace_ne home
      exact (FileTree.node?_addFile_of_ne hfree {} hne).trans hsays
    | some label =>
      obtain ⟨id, hnode, hne, hid, hbytes⟩ := hsays
      refine ⟨id, halters.grows _ _ hnode, hne, Nat.lt_of_lt_of_le hid halters.length_le, ?_⟩
      rw [FileTree.content_addFile _ _ hid]
      exact hbytes

end CacheEntry

namespace Storage

variable {entry : CacheEntry} {storage storage' : Storage} {home : List String} {ledger : Ledger}
  {store : BlockStore}

/-- The storage has an entry as a ledger says. -/
structure Keeps (storage : Storage) (entry : CacheEntry) (home : List String) (ledger : Ledger) :
    Prop where
  stands : entry.Stands storage.files home ledger
  store_eq : storage.store? entry.key = ledger.store?
  owned : ∀ store, ledger.store? = some store →
    store.data = ledger.data ∧ store.sidecarPath = entry.sidecarPath

/-- An operation was about one entry alone. -/
structure Confined (entry : CacheEntry) (home : List String) (storage storage' : Storage) :
    Prop where
  files : storage.files.AltersOnly (entry.Owns home) storage'.files
  stores : ∀ key, key ≠ entry.key → storage'.store? key = storage.store? key

theorem Confined.refl (entry : CacheEntry) (home : List String) (storage : Storage) :
    Confined entry home storage storage where
  files := .refl _
  stores _ _ := rfl

/-! ### Other stores -/

theorem store?_setStore_of_ne {key other : FilePath.Key} (h : other ≠ key) :
    (storage.setStore key store).store? other = storage.store? other := by
  obtain ⟨files, stores⟩ := storage
  unfold store? setStore
  dsimp only
  induction stores with
  | nil => rfl
  | cons first stores ih =>
    rw [List.map_cons, List.lookup_cons, List.lookup_cons]
    by_cases hkey : first.1 = key
    · have hother : (other == first.1) = false := beq_eq_false_iff_ne.mpr (hkey ▸ h)
      have hnew : (other == key) = false := beq_eq_false_iff_ne.mpr h
      rw [if_pos hkey, hnew, hother]
      exact ih
    · rw [if_neg hkey]
      cases (other == first.1) with
      | true => rfl
      | false => exact ih

theorem store?_filter_of_ne {key other : FilePath.Key} (h : other ≠ key) (files : FileTree)
    (stores : List (FilePath.Key × BlockStore)) :
    (Storage.mk files (stores.filter (·.1 ≠ key))).store? other =
      (Storage.mk files stores).store? other := by
  have hkeep := FileTree.lookup_filter (fun found : FilePath.Key => decide (found ≠ key)) other
    stores
  rw [if_pos (by simpa using h)] at hkeep
  exact hkeep

theorem store?_cons_of_ne {key other : FilePath.Key} (h : other ≠ key) (files : FileTree)
    (stores : List (FilePath.Key × BlockStore)) :
    (Storage.mk files ((key, store) :: stores)).store? other =
      (Storage.mk files stores).store? other := by
  have hother : (other == key) = false := beq_eq_false_iff_ne.mpr h
  unfold store?
  dsimp only
  rw [List.lookup_cons, hother]

/-! ### Operations -/

namespace Keeps

/-- The open store is exchanged for another one on the same files. -/
theorem setStore (h : storage.Keeps entry home ledger) (hopen : ledger.store? = some store)
    (changed : BlockStore) (hdata : changed.data = store.data)
    (hsidecar : changed.sidecarPath = store.sidecarPath) :
    (storage.setStore entry.key changed).Keeps entry home { ledger with store? := some changed } ∧
      Confined entry home storage (storage.setStore entry.key changed) := by
  obtain ⟨hfile, hpath⟩ := h.owned store hopen
  refine ⟨⟨h.stands.setStore _, ?_, ?_⟩, .refl _, fun key hkey => store?_setStore_of_ne hkey⟩
  · exact store?_setStore (h.store_eq.trans hopen)
  · intro other hother
    cases hother
    exact ⟨hdata.trans hfile, hsidecar.trans hpath⟩

/-- The files are exchanged for others that another ledger tells of. -/
theorem setFiles {files : FileTree} {changed : Ledger} (h : storage.Keeps entry home ledger)
    (hstands : entry.Stands files home changed) (hdata : changed.data = ledger.data)
    (hstore : changed.store? = ledger.store?) :
    ({ storage with files } : Storage).Keeps entry home changed where
  stands := hstands
  store_eq := h.store_eq.trans hstore.symm
  owned store hopen := by
    obtain ⟨hfile, hpath⟩ := h.owned store (hstore.symm.trans hopen)
    exact ⟨hfile.trans hdata.symm, hpath⟩

/-- What a store reads of its data file. -/
theorem readAt_eq (h : storage.Keeps entry home ledger) (hopen : ledger.store? = some store)
    (offset len : Nat) :
    storage.files.readAt store.data offset len =
      if FileTree.maxFileSize < offset + len then .error .invalidOffset
      else .ok (ledger.file.read offset len) := by
  rw [(h.owned store hopen).1, FileTree.readAt, h.stands.file_eq]

theorem loadBlock (h : storage.Keeps entry home ledger) (index : Nat) :
    (storage.loadBlock entry.key index).1 = (ledger.loadBlock index).1 ∧
      (storage.loadBlock entry.key index).2.Keeps entry home (ledger.loadBlock index).2 ∧
      Confined entry home storage (storage.loadBlock entry.key index).2 := by
  unfold Storage.loadBlock Ledger.loadBlock
  rw [h.store_eq]
  cases hopen : ledger.store? with
  | none => exact ⟨rfl, h, .refl _ _ _⟩
  | some store =>
    dsimp only
    by_cases hlisted : index ∈ store.filled
    · have herased := h.setStore hopen
        { store with filled := store.filled.erase index } rfl rfl
      rw [if_pos hlisted, if_pos hlisted, h.readAt_eq hopen]
      by_cases hreach : FileTree.maxFileSize < store.grid.start index + store.grid.width index
      · rw [if_pos hreach, if_neg (fun hhas => absurd hreach (Nat.not_lt.mpr hhas.1))]
        exact ⟨rfl, herased⟩
      · rw [if_neg hreach]
        dsimp only
        rw [FileContent.length_read]
        by_cases hfull : store.grid.width index ≤ ledger.file.size - store.grid.start index
        · rw [if_pos (Nat.min_eq_left hfull), if_pos ⟨Nat.not_lt.mp hreach, hfull⟩]
          exact ⟨rfl, h, .refl _ _ _⟩
        · rw [if_neg (by omega), if_neg (fun hhas => hfull hhas.2)]
          exact ⟨rfl, herased⟩
    · rw [if_neg hlisted, if_neg hlisted]
      exact ⟨rfl, h, .refl _ _ _⟩

theorem saveBlock (h : storage.Keeps entry home ledger) (index : Nat) (block : Bytes) :
    (storage.saveBlock entry.key index block).Keeps entry home (ledger.saveBlock index block) ∧
      Confined entry home storage (storage.saveBlock entry.key index block) := by
  unfold Storage.saveBlock Ledger.saveBlock
  rw [h.store_eq]
  cases hopen : ledger.store? with
  | none => exact ⟨h, .refl _ _ _⟩
  | some store =>
    dsimp only
    have hdata := (h.owned store hopen).1
    by_cases hreach : FileTree.maxFileSize < store.grid.start index + block.length
    · rw [if_pos hreach, FileTree.writeAt, if_pos hreach]
      exact ⟨h, .refl _ _ _⟩
    · cases hwrite : storage.files.writeAt store.data (store.grid.start index) block with
      | error error =>
        rw [FileTree.writeAt, if_neg hreach] at hwrite
        cases hwrite
      | ok files =>
        rw [if_neg hreach]
        rw [hdata] at hwrite
        obtain ⟨hstands, halters⟩ := h.stands.writeAt hwrite
        obtain ⟨hkeeps, hconfined⟩ := (h.setFiles hstands rfl rfl).setStore hopen
          { store with
            filled := BlockStore.BlockSet.insert index store.filled, unsaved := true } rfl rfl
        exact ⟨hkeeps, ⟨halters.trans hconfined.files, hconfined.stores⟩⟩

theorem saveSidecar (h : storage.Keeps entry home ledger) :
    (storage.saveSidecar entry.key).2.Keeps entry home ledger.saveSidecar ∧
      Confined entry home storage (storage.saveSidecar entry.key).2 := by
  unfold Storage.saveSidecar Ledger.saveSidecar
  rw [h.store_eq]
  cases hopen : ledger.store? with
  | none => exact ⟨h, .refl _ _ _⟩
  | some store =>
    obtain ⟨files, hwrite, hstands, halters⟩ := h.stands.writeSidecar store.label
    have hsaved : storage.files.writeFile store.sidecarPath
        (BlockStore.Sidecar.encode store.path store.size store.filled) = .ok files := by
      rw [(h.owned store hopen).2]
      exact hwrite
    dsimp only
    rw [hsaved]
    obtain ⟨hkeeps, hconfined⟩ := (h.setFiles hstands rfl rfl).setStore hopen
      { store with unsaved := false } rfl rfl
    exact ⟨hkeeps, ⟨halters.trans hconfined.files, hconfined.stores⟩⟩

theorem release (h : storage.Keeps entry home ledger) :
    (storage.release entry.key).Keeps entry home ledger.release ∧
      Confined entry home storage (storage.release entry.key) := by
  unfold Storage.release Ledger.release
  rw [h.store_eq]
  cases hopen : ledger.store? with
  | none => exact ⟨h, .refl _ _ _⟩
  | some store =>
    dsimp only
    by_cases hheld : 1 < store.holders
    · rw [if_pos hheld, if_pos hheld]
      exact h.setStore hopen _ rfl rfl
    · rw [if_neg hheld, if_neg hheld]
      have hclose {saved : Storage} {left : Ledger} (hsaved : saved.Keeps entry home left)
          (hconfined : Confined entry home storage saved) :
          Keeps { saved with stores := saved.stores.filter (·.1 ≠ entry.key) } entry home
              { left with store? := none } ∧
            Confined entry home storage
              { saved with stores := saved.stores.filter (·.1 ≠ entry.key) } := by
        refine ⟨⟨hsaved.stands.setStore _, store?_filter _ _ _, ?_⟩, hconfined.files, ?_⟩
        · intro other hother
          cases hother
        · intro key hkey
          exact (store?_filter_of_ne hkey _ _).trans (hconfined.stores key hkey)
      by_cases hunsaved : store.unsaved = true
      · rw [if_pos hunsaved, if_pos hunsaved]
        exact hclose h.saveSidecar.1 h.saveSidecar.2
      · rw [if_neg hunsaved, if_neg hunsaved]
        exact hclose h (.refl _ _ _)

/-- A store whose files are there is always opened, unless it is open for another size. -/
theorem openStore (h : storage.Keeps entry home ledger) (size : Nat) :
    (storage.openStore entry size).1 = (ledger.openStore entry size).1 ∧
      (storage.openStore entry size).2.Keeps entry home (ledger.openStore entry size).2 ∧
      Confined entry home storage (storage.openStore entry size).2 := by
  unfold Storage.openStore Ledger.openStore
  rw [h.store_eq]
  cases hopen : ledger.store? with
  | some store =>
    dsimp only
    by_cases hsize : store.size = size
    · rw [if_pos hsize, if_pos hsize]
      exact ⟨rfl, h.setStore hopen _ rfl rfl⟩
    · rw [if_neg hsize, if_neg hsize]
      exact ⟨rfl, h, .refl _ _ _⟩
  | none =>
    have hprepare : storage.prepare entry = storage := by
      rw [Storage.prepare, FileTree.makeDirectories_of_usable h.stands.usable]
    have hfile := FileTree.openFile_of_locate h.stands.dataPlace h.stands.dataNode
    dsimp only
    rw [hprepare, openNew, if_pos h.stands.usable, hfile, addStore, h.stands.listed_eq]
    refine ⟨rfl, ⟨h.stands.setStore _, store?_cons _ _, ?_⟩, .refl _, fun key hkey => ?_⟩
    · intro store hstore
      cases hstore
      exact ⟨rfl, rfl⟩
    · exact store?_cons_of_ne hkey _ _

end Keeps

/-! ### First uses -/

/-- A store is opened where there is room for its data file. -/
theorem openStore_of_vacant {label? : Option BlockStore.Label}
    (hclosed : storage.store? entry.key = none)
    (h : entry.Vacant (storage.prepare entry).files home label?) (size : Nat) :
    let new : Ledger := { data := (storage.prepare entry).files.contents.length, label? }
    (storage.openStore entry size).1 = some entry.key ∧
      (storage.openStore entry size).2.Keeps entry home (new.openStore entry size).2 ∧
        Confined entry home (storage.prepare entry) (storage.openStore entry size).2 := by
  intro new
  obtain ⟨files, hopen, hstands, halters⟩ := h.openFile
  have hlisted : entry.listed _ size = new.listed entry.path size :=
    CacheEntry.listed_eq_of_says h.sidecarPlace h.sidecar size
  unfold Storage.openStore Ledger.openStore
  rw [hclosed]
  dsimp only
  rw [openNew, if_pos h.usable, hopen, addStore, hlisted]
  refine ⟨rfl, ⟨hstands.setStore _, store?_cons _ _, ?_⟩, halters, fun key hkey => ?_⟩
  · intro store hstore
    cases hstore
    exact ⟨rfl, rfl⟩
  · exact store?_cons_of_ne hkey _ _

/-- Where an entry has never been used, there is room for its data file or no store can be
opened. -/
theorem Untouched.vacant (h : storage.Untouched entry) (size : Nat) :
    storage.openStore entry size = (none, storage.prepare entry) ∨
      ∃ home, entry.Vacant (storage.prepare entry).files home none := by
  unfold Storage.openStore
  rw [h.closed]
  dsimp only
  unfold openNew
  by_cases husable : (storage.prepare entry).files.isUsableDirectory entry.directory = true
  · rw [if_pos husable]
    cases hfile : (storage.prepare entry).files.openFile entry.dataPath with
    | error error => exact .inl rfl
    | ok result =>
      obtain ⟨data, files⟩ := result
      obtain ⟨names, hlocate, -⟩ := FileTree.openFile_eq_ok hfile
      obtain ⟨home, hplace, hsidecar⟩ := CacheEntry.locate_sidecarPath hlocate
      rw [hplace] at hlocate
      have hdataFree := (FileTree.pathExists_of_locate hlocate).symm.trans h.noData
      have hsidecarFree := (FileTree.pathExists_of_locate hsidecar).symm.trans h.noSidecar
      rw [Option.isSome_eq_false_iff, Option.isNone_iff_eq_none] at hdataFree hsidecarFree
      exact .inr ⟨home, husable, hlocate, hsidecar, hdataFree, hsidecarFree⟩
  · rw [if_neg husable]
    exact .inl rfl

end Storage

end PspBoot
