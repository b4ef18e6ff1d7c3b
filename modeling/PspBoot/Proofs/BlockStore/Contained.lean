import PspBoot.Proofs.BlockStore.Neighbours
import PspBoot.Proofs.Storage.Elsewhere

/-!
# Changes that stay in the cache

Whatever the users of stores do in a cache directory, it stays there: `storage.Contained base
directory paths` says that the files are those of `base`, but for the cache directory, which may have
been made, and for the files in it that belong to the entries of some paths.  That is kept up by all
operations on the stores of these entries, whatever the blocks are that they save, since a store only
ever writes to its data file and its sidecar file.
-/

namespace PspBoot

namespace CacheEntry

/-- The places of the files of some entries, as they are found in a file tree. -/
def Reserved (files : FileTree) (directory : String) (paths : String → Prop) (place : Place) :
    Prop :=
  ∃ path, paths path ∧
    (files.locate (dataPath { directory, path }) = .ok place ∨
      files.locate (sidecarPath { directory, path }) = .ok place)

end CacheEntry

open CacheEntry (Reserved)

variable {base : FileTree} {directory : String} {paths : String → Prop} {storage : Storage}
  {store changed : BlockStore} {key : FilePath.Key} {path : String}

/-- The data file of a store stands at one of the places, and its sidecar file belongs at one. -/
structure BlockStore.StaysIn (store : BlockStore) (own : Place → Prop) (files : FileTree)
    (directory : String) (paths : String → Prop) : Prop where
  data : ∃ place, own place ∧ files.node? place = some (.file store.data)
  sidecar : ∃ path, paths path ∧ store.sidecarPath = CacheEntry.sidecarPath { directory, path }

theorem BlockStore.StaysIn.grows {own : Place → Prop} {files files' : FileTree}
    (h : store.StaysIn own files directory paths) (hgrows : files.Grows files') :
    store.StaysIn own files' directory paths where
  data := by
    obtain ⟨place, hplace, hnode⟩ := h.data
    exact ⟨place, hplace, hgrows _ _ hnode⟩
  sidecar := h.sidecar

namespace Storage

/-- The storage once the cache directory has been used for some paths. -/
structure Used (base : FileTree) (directory : String) (paths : String → Prop)
    (storage : Storage) : Prop where
  usable : (base.makeDirectories directory).isUsableDirectory directory = true
  files : (base.makeDirectories directory).FillsOnly
    (Reserved (base.makeDirectories directory) directory paths) storage.files
  stores : ∀ path, paths path → ∀ store,
    storage.store? (CacheEntry.key { directory, path }) = some store →
      store.StaysIn (Reserved (base.makeDirectories directory) directory paths) storage.files
        directory paths

/-- Nothing outside the cache has been changed. -/
inductive Contained (base : FileTree) (directory : String) (paths : String → Prop)
    (storage : Storage) : Prop
  | unused (hfiles : storage.files = base ∨ storage.files = base.makeDirectories directory)
      (hclosed : ∀ path, paths path →
        storage.store? (CacheEntry.key { directory, path }) = none)
  | used (h : storage.Used base directory paths)

namespace Used

/-- The files are exchanged for others that differ in the cache alone. -/
theorem setFiles (h : storage.Used base directory paths) {files : FileTree}
    (hfills : (base.makeDirectories directory).FillsOnly
      (Reserved (base.makeDirectories directory) directory paths) files)
    (hgrows : storage.files.Grows files) : Used base directory paths { storage with files } where
  usable := h.usable
  files := hfills
  stores path hpath store hopen := (h.stores path hpath store hopen).grows hgrows

/-- The stores are exchanged for others, each with the files of an old one. -/
theorem setStores (h : storage.Used base directory paths)
    {stores : List (FilePath.Key × BlockStore)}
    (hstores : ∀ path, paths path → ∀ store,
      ({ storage with stores } : Storage).store? (CacheEntry.key { directory, path }) = some store →
        ∃ old, storage.store? (CacheEntry.key { directory, path }) = some old ∧
          store.data = old.data ∧ store.sidecarPath = old.sidecarPath) :
    Used base directory paths { storage with stores } where
  usable := h.usable
  files := h.files
  stores path hpath store hopen := by
    obtain ⟨old, hold, hdata, hsidecar⟩ := hstores path hpath store hopen
    have hstays := h.stores path hpath old hold
    constructor
    · rw [hdata]
      exact hstays.data
    · rw [hsidecar]
      exact hstays.sidecar

theorem setStore (h : storage.Used base directory paths) (hopen : storage.store? key = some store)
    (hdata : changed.data = store.data) (hsidecar : changed.sidecarPath = store.sidecarPath) :
    (storage.setStore key changed).Used base directory paths := by
  apply h.setStores
  intro path _ found hfound
  change (storage.setStore key changed).store? _ = _ at hfound
  by_cases hsame : CacheEntry.key { directory, path } = key
  · rw [hsame] at hfound ⊢
    cases (store?_setStore hopen).symm.trans hfound
    exact ⟨store, hopen, hdata, hsidecar⟩
  · rw [store?_setStore_of_ne hsame] at hfound
    exact ⟨found, hfound, rfl, rfl⟩

/-- A store is closed. -/
theorem filter (h : storage.Used base directory paths) (key : FilePath.Key) :
    Used base directory paths { storage with stores := storage.stores.filter (·.1 ≠ key) } := by
  apply h.setStores
  intro path _ found hfound
  by_cases hsame : CacheEntry.key { directory, path } = key
  · rw [hsame, store?_filter] at hfound
    cases hfound
  · rw [store?_filter_of_ne hsame] at hfound
    exact ⟨found, hfound, rfl, rfl⟩

/-- A new store is opened. -/
theorem addStore (h : storage.Used base directory paths) (hpath : paths path) {size : Nat}
    {data : FileId} {files : FileTree}
    (hopen : storage.files.openFile (CacheEntry.dataPath { directory, path }) = .ok (data, files)) :
    (storage.addStore { directory, path } size (.ok (data, files))).2.Used base directory paths := by
  obtain ⟨names, hlocate, -⟩ := FileTree.openFile_eq_ok hopen
  have hplace : Reserved (base.makeDirectories directory) directory paths (.inside names) :=
    ⟨path, hpath, .inl (h.files.locate_eq hlocate)⟩
  obtain ⟨hfills, hnode⟩ := h.files.openFile hlocate hplace hopen
  have hgrows : storage.files.Grows files := (FileTree.AltersOnly.openFile hlocate hplace hopen).grows
  refine ⟨h.usable, hfills, fun other hother found hfound => ?_⟩
  by_cases hsame : CacheEntry.key { directory, path := other } = CacheEntry.key { directory, path }
  · rw [hsame] at hfound
    cases (store?_cons _ _).symm.trans hfound
    exact ⟨⟨_, hplace, hnode⟩, path, hpath, rfl⟩
  · have hold := (store?_cons_of_ne hsame _ _).symm.trans hfound
    exact (h.stores other hother found hold).grows hgrows

theorem saveBlock (h : storage.Used base directory paths) (hpath : paths path) (index : Nat)
    (block : Bytes) :
    (storage.saveBlock (CacheEntry.key { directory, path }) index block).Used base directory
      paths := by
  unfold Storage.saveBlock
  cases hopen : storage.store? (CacheEntry.key { directory, path }) with
  | none => exact h
  | some store =>
    dsimp only
    split
    · exact h
    · next files hwrite =>
      obtain ⟨place, hplace, hnode⟩ := (h.stores path hpath store hopen).data
      obtain rfl := FileTree.writeAt_eq_ok hwrite
      exact (h.setFiles (h.files.set hplace hnode _) (FileTree.grows_contents _ _)).setStore hopen
        rfl rfl

theorem saveSidecar (h : storage.Used base directory paths) (hpath : paths path) :
    (storage.saveSidecar (CacheEntry.key { directory, path })).2.Used base directory paths := by
  unfold Storage.saveSidecar
  cases hopen : storage.store? (CacheEntry.key { directory, path }) with
  | none => exact h
  | some store =>
    dsimp only
    split
    · exact h
    · next files hwrite =>
      obtain ⟨other, hother, hsidecar⟩ := (h.stores path hpath store hopen).sidecar
      obtain ⟨id, opened, hfile, -⟩ := FileTree.writeFile_eq_ok hwrite
      obtain ⟨names, hlocate, -⟩ := FileTree.openFile_eq_ok hfile
      have hplace : Reserved (base.makeDirectories directory) directory paths (.inside names) :=
        ⟨other, hother, .inr (hsidecar ▸ h.files.locate_eq hlocate)⟩
      have hgrows := (FileTree.AltersOnly.writeFile hlocate hplace hwrite).grows
      have hwritten := h.setFiles (h.files.writeFile hlocate hplace hwrite) hgrows
      exact hwritten.setStore hopen rfl rfl

end Used

namespace Contained

/-- With an open store the cache directory has been used. -/
theorem used_of_store (h : storage.Contained base directory paths) (hpath : paths path)
    (hopen : storage.store? (CacheEntry.key { directory, path }) = some store) :
    storage.Used base directory paths := by
  cases h with
  | unused _ hclosed => cases (hclosed path hpath).symm.trans hopen
  | used h => exact h

/-- What is done to an open store only is contained if it is in a directory that has been used. -/
theorem of_used {storage' : Storage} (h : storage.Contained base directory paths)
    (hpath : paths path)
    (hclosed : storage.store? (CacheEntry.key { directory, path }) = none → storage' = storage)
    (hused : storage.Used base directory paths → storage'.Used base directory paths) :
    storage'.Contained base directory paths := by
  cases hopen : storage.store? (CacheEntry.key { directory, path }) with
  | none =>
    rw [hclosed hopen]
    exact h
  | some store => exact .used (hused (h.used_of_store hpath hopen))

variable (hplain : ∀ place, Reserved (base.makeDirectories directory) directory paths place →
  (base.makeDirectories directory).node? place ≠ some .directory)

include hplain in
/-- When the cache directory is made, it may have been used before. -/
theorem prepare (h : storage.Contained base directory paths) (path : String) :
    (storage.prepare { directory, path }).Contained base directory paths ∧
      ((storage.prepare { directory, path }).files.isUsableDirectory directory = true →
        (storage.prepare { directory, path }).Used base directory paths) := by
  cases h with
  | unused hfiles hclosed =>
    have hprepared : (storage.prepare { directory, path }).files = base.makeDirectories directory := by
      rw [Storage.prepare]
      rcases hfiles with hbase | hmade
      · exact congrArg (FileTree.makeDirectories · directory) hbase
      · refine (congrArg (FileTree.makeDirectories · directory) hmade).trans ?_
        exact FileTree.makeDirectories_makeDirectories base directory
    refine ⟨.unused (.inr hprepared) hclosed, fun husable => ?_⟩
    rw [hprepared] at husable
    refine ⟨husable, ?_, fun other hother store hopen => ?_⟩
    · rw [hprepared]
      exact .refl hplain
    · cases (hclosed other hother).symm.trans hopen
  | used h =>
    have husable := h.files.grows.isUsableDirectory h.usable
    have hprepared : storage.prepare { directory, path } = storage := by
      rw [Storage.prepare, FileTree.makeDirectories_of_usable husable]
    rw [hprepared]
    exact ⟨.used h, fun _ => h⟩

include hplain in
theorem openStore (h : storage.Contained base directory paths) (hpath : paths path) (size : Nat) :
    (storage.openStore { directory, path } size).2.Contained base directory paths := by
  unfold Storage.openStore
  cases hopen : storage.store? (CacheEntry.key { directory, path }) with
  | some store =>
    dsimp only
    split
    · exact .used ((h.used_of_store hpath hopen).setStore hopen rfl rfl)
    · exact h
  | none =>
    obtain ⟨hprepared, hused⟩ := h.prepare hplain path
    dsimp only
    unfold openNew
    split
    · next husable =>
      cases hfile : (storage.prepare { directory, path }).files.openFile
          (CacheEntry.dataPath { directory, path }) with
      | error error => exact hprepared
      | ok result => exact .used ((hused husable).addStore hpath hfile)
    · exact hprepared

theorem loadBlock (h : storage.Contained base directory paths) (hpath : paths path) (index : Nat) :
    (storage.loadBlock (CacheEntry.key { directory, path }) index).2.Contained base directory
      paths := by
  apply h.of_used hpath
  · intro hclosed
    rw [Storage.loadBlock, hclosed]
  · intro hused
    unfold Storage.loadBlock
    cases hopen : storage.store? (CacheEntry.key { directory, path }) with
    | none => exact hused
    | some store =>
      let erased : BlockStore := { store with filled := store.filled.erase index }
      have herased : (storage.setStore (CacheEntry.key { directory, path }) erased).Used base
          directory paths := hused.setStore hopen rfl rfl
      dsimp only
      split
      · split
        · split
          · exact hused
          · exact herased
        · exact herased
      · exact hused

theorem release (h : storage.Contained base directory paths) (hpath : paths path) :
    (storage.release (CacheEntry.key { directory, path })).Contained base directory paths := by
  apply h.of_used hpath
  · intro hclosed
    rw [Storage.release, hclosed]
  · intro hused
    unfold Storage.release
    cases hopen : storage.store? (CacheEntry.key { directory, path }) with
    | none => exact hused
    | some store =>
      dsimp only
      split
      · exact hused.setStore hopen rfl rfl
      · split
        · exact (hused.saveSidecar hpath).filter _
        · exact hused.filter _

end Contained

/-- **Whatever the users of stores do stays in the cache**, where no directory stands in the way of
its files. -/
theorem upkeep_contained
    (hplain : ∀ place, Reserved (base.makeDirectories directory) directory paths place →
      (base.makeDirectories directory).node? place ≠ some .directory)
    {known : String → Nat → Prop} (hknown : ∀ path size, known path size → paths path)
    (good : String → Nat → Nat → Bytes → Prop) :
    Upkeep (Contained base directory paths) directory known good where
  openStore h hpath := h.openStore hplain (hknown _ _ hpath) _
  loadBlock h hpath index := h.loadBlock (hknown _ _ hpath) index
  saveBlock h hpath hopen _ _ _ _ :=
    .used ((h.used_of_store (hknown _ _ hpath) hopen).saveBlock (hknown _ _ hpath) _ _)
  saveSidecar h hpath := by
    apply h.of_used (hknown _ _ hpath)
    · intro hclosed
      rw [Storage.saveSidecar, hclosed]
    · exact fun hused => hused.saveSidecar (hknown _ _ hpath)
  release h hpath := h.release (hknown _ _ hpath)

/-- Nothing stands at the places of entries that have never been used. -/
theorem Untouched.node?_reserved
    (hnew : ∀ path, paths path → storage.Untouched { directory, path }) {place : Place}
    (hplace : Reserved (storage.files.makeDirectories directory) directory paths place) :
    (storage.files.makeDirectories directory).node? place = none := by
  obtain ⟨path, hpath, hlocate⟩ := hplace
  have hfree {file : String}
      (habsent : (storage.files.makeDirectories directory).pathExists file = false)
      (hfile : (storage.files.makeDirectories directory).locate file = .ok place) :
      (storage.files.makeDirectories directory).node? place = none := by
    rw [FileTree.pathExists_of_locate hfile] at habsent
    exact Option.isNone_iff_eq_none.mp (Option.isSome_eq_false_iff.mp habsent)
  rcases hlocate with hdata | hsidecar
  · exact hfree (hnew path hpath).noData hdata
  · exact hfree (hnew path hpath).noSidecar hsidecar

/-- A path to something that is there leads past them. -/
theorem Untouched.leadsPast (hnew : ∀ path, paths path → storage.Untouched { directory, path })
    {seen : String} (hthere : (storage.files.makeDirectories directory).pathExists seen = true)
    (hinRange : ∀ id, (storage.files.makeDirectories directory).stat seen = .ok (.file id) →
      id < (storage.files.makeDirectories directory).contents.length) :
    (storage.files.makeDirectories directory).LeadsPast
      (Reserved (storage.files.makeDirectories directory) directory paths) seen where
  place place hlocate hplace := by
    rw [FileTree.pathExists_of_locate hlocate, Untouched.node?_reserved hnew hplace] at hthere
    cases hthere
  content id hstat := by
    refine ⟨hinRange id hstat, fun place hplace hnode => ?_⟩
    cases (Untouched.node?_reserved hnew hplace).symm.trans hnode

/-- Where entries are tended, no directory stands in the way of their files. -/
theorem Tended.plain {entries : CacheEntry → Prop} {I : Ledger → Prop}
    (h : storage.Tended entries I) (hentries : ∀ path, paths path → entries { directory, path })
    (place : Place)
    (hplace : Reserved (storage.files.makeDirectories directory) directory paths place) :
    (storage.files.makeDirectories directory).node? place ≠ some .directory := by
  rcases h with hunused | ⟨home, hsettled⟩
  · rw [Untouched.node?_reserved (fun path hpath => hunused _ (hentries path hpath)) hplace]
    exact nofun
  · obtain ⟨path, hpath, hlocate⟩ := hplace
    have hentry := hentries path hpath
    have hused (husable : storage.files.isUsableDirectory directory = true) :
        storage.files.makeDirectories directory = storage.files :=
      FileTree.makeDirectories_of_usable husable
    intro hnode
    cases hsettled.placed _ hentry with
    | vacant _ h =>
      rw [hused h.usable] at hlocate hnode
      rcases hlocate with hdata | hsidecar
      · cases h.dataPlace.symm.trans hdata
        cases h.dataFree.symm.trans hnode
      · cases h.sidecarPlace.symm.trans hsidecar
        cases h.sidecar.symm.trans hnode
    | kept h _ =>
      have hstands := h.stands
      rw [hused hstands.usable] at hlocate hnode
      rcases hlocate with hdata | hsidecar
      · cases hstands.dataPlace.symm.trans hdata
        cases hstands.dataNode.symm.trans hnode
      · cases hstands.sidecarPlace.symm.trans hsidecar
        rcases hstands.sidecar_cases with ⟨-, hnone⟩ | ⟨_, _, -, hfile, -⟩
        · cases hnone.symm.trans hnode
        · cases hfile.symm.trans hnode

/-- What is outside the cache looks the same as at the beginning. -/
theorem Contained.sameAt (h : storage.Contained base directory paths) {seen : String}
    (hmade : (base.makeDirectories directory).pathExists seen = base.pathExists seen)
    (hpast : (base.makeDirectories directory).LeadsPast
      (Reserved (base.makeDirectories directory) directory paths) seen) :
    base.SameAt storage.files seen := by
  have hprepared := FileTree.sameAt_makeDirectories hmade
  cases h with
  | unused hfiles _ =>
    rcases hfiles with hbase | hmade
    · rw [hbase]
      exact .refl base seen
    · rw [hmade]
      exact hprepared
  | used h => exact hprepared.trans (hpast.sameAt h.files)

end Storage

end PspBoot
