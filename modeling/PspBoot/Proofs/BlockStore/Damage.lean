import PspBoot.Proofs.BlockStore.Traced

/-!
# Data files that have lost bytes

The data file of an entry may be lost or cut while its sidecar stays (`Damaged`).  A block that is
still listed is read again from the source when the file is found to end within it.  But the file
may have got longer by then: a block that is stored behind a missing one extends the file, and the
bytes between are zeros.  So a block whose lost bytes were not zeros is only safe as long as the
next one cannot be stored (`Followed`).

`Sparse` is what holds of the ledger while the listed blocks are safe.  `Hollow` is what holds of it
where one is not.
-/

namespace PspBoot

/-- The data file of an entry is lost, or it is cut behind some of its first bytes. -/
inductive CacheEntry.Damaged (entry : CacheEntry) (files : FileTree) : FileTree → Prop
  | removed {bytes : Bytes} (hbytes : files.bytesOf entry.dataPath = .ok bytes) :
      Damaged entry files (files.remove entry.dataPath)
  | cut {bytes : Bytes} {files' : FileTree} (kept : Nat)
      (hbytes : files.bytesOf entry.dataPath = .ok bytes)
      (hwrite : files.writeFile entry.dataPath (bytes.take kept) = .ok files') :
      Damaged entry files files'

namespace CacheEntry

variable {entry : CacheEntry} {files files' : FileTree} {home : List String} {ledger : Ledger}

/-- A data file that has any bytes is there. -/
theorem exists_bytes (h : entry.dataBytes files ≠ []) :
    ∃ bytes, files.bytesOf entry.dataPath = .ok bytes := by
  rw [dataBytes] at h
  cases hfound : files.bytesOf entry.dataPath with
  | error error =>
    rw [hfound] at h
    exact absurd rfl h
  | ok bytes => exact ⟨bytes, rfl⟩

/-- Only a data file that is there can be damaged. -/
theorem Damaged.exists_bytes (h : entry.Damaged files files') :
    ∃ bytes, files.bytesOf entry.dataPath = .ok bytes := by
  cases h with
  | removed hbytes => exact ⟨_, hbytes⟩
  | cut kept hbytes hwrite => exact ⟨_, hbytes⟩

/-- A data file that is lost leaves the sidecar and the way to both behind. -/
theorem Stands.remove (h : entry.Stands files home ledger) :
    entry.Vacant (files.remove entry.dataPath) home ledger.label? := by
  obtain ⟨names, hnames⟩ : ∃ names, entry.dataPlace home = .inside names := ⟨_, rfl⟩
  have hplace := h.dataPlace
  have hnode := h.dataNode
  have hother : ¬FileTree.Below names (entry.sidecarPlace home) := by
    -- Both places are slots of one directory, so one lies below the other only if they are one.
    intro hbelow
    have hsame : entry.sidecarPlace home = .inside names := by
      obtain ⟨own, hown⟩ : ∃ own, entry.dataPlace home = .inside (own :: home) := ⟨_, rfl⟩
      obtain ⟨name, hname⟩ : ∃ name, entry.sidecarPlace home = .inside (name :: home) := ⟨_, rfl⟩
      rw [hnames] at hown
      obtain rfl := Place.inside.inj hown
      rw [hname] at hbelow ⊢
      exact congrArg Place.inside (hbelow.eq_of_length (by simp)).symm
    exact entry.sidecarPlace_ne home (hsame.trans hnames.symm)
  rw [hnames] at hplace hnode
  rw [FileTree.remove_of_locate hplace hnode]
  constructor
  case usable => exact FileTree.isUsableDirectory_without hnode h.usable
  case dataPlace =>
    rw [hnames]
    exact FileTree.locate_without hnode hplace
  case sidecarPlace => exact FileTree.locate_without hnode h.sidecarPlace
  case dataFree =>
    rw [hnames]
    exact FileTree.node?_without_self hnode
  case sidecar =>
    rcases h.sidecar_cases with ⟨hlabel, hnone⟩ | ⟨label, id, hlabel, hid, -, hrange, hbytes⟩
    · rw [hlabel]
      exact (FileTree.node?_without hother).trans hnone
    · rw [hlabel]
      exact ⟨id, (FileTree.node?_without hother).trans hid, Nat.ne_of_lt hrange, hrange, hbytes⟩

/-- A data file that is written anew stays where it is. -/
theorem Stands.rewrite (h : entry.Stands files home ledger) {data : Bytes}
    (hwrite : files.writeFile entry.dataPath data = .ok files') :
    entry.Stands files' home { ledger with file := .ofBytes data } := by
  obtain ⟨id, opened, hopen, rfl⟩ := FileTree.writeFile_eq_ok hwrite
  rw [FileTree.openFile_of_locate h.dataPlace h.dataNode] at hopen
  obtain ⟨rfl, rfl⟩ := Prod.mk.inj (Except.ok.inj hopen)
  have halters : files.AltersOnly (entry.Owns home) _ := .set (.inl rfl) h.dataNode (.ofBytes data)
  constructor
  case usable => exact halters.grows.isUsableDirectory h.usable
  case dataPlace => exact halters.grows.locate h.dataPlace
  case sidecarPlace => exact halters.grows.locate h.sidecarPlace
  case dataNode => exact halters.grows _ _ h.dataNode
  case inRange => exact Nat.lt_of_lt_of_eq h.inRange List.length_set.symm
  case file_eq => exact FileTree.content_set_self _ h.inRange
  case sidecar =>
    rcases h.sidecar_cases with ⟨hlabel, hnone⟩ | ⟨label, id, hlabel, hid, hne, hrange, hbytes⟩
    · rw [hlabel]
      exact (FileTree.node?_contents _ _ _).trans hnone
    · rw [hlabel]
      refine ⟨id, halters.grows _ _ hid, hne, Nat.lt_of_lt_of_eq hrange List.length_set.symm, ?_⟩
      rw [FileTree.content_set_of_ne _ (Ne.symm hne)]
      exact hbytes

end CacheEntry

namespace Storage

variable {entry : CacheEntry} {storage later : Storage} {home : List String} {ledger found : Ledger}

/-- Whoever opens a store of an entry finds it as a ledger says, whether there is a data file or
not. -/
structure Offers (storage : Storage) (entry : CacheEntry) (home : List String) (found : Ledger) :
    Prop where
  closed : found.store? = none
  dataBytes_eq : entry.dataBytes storage.files = found.file.toBytes
  listed_eq : ∀ size, entry.listed storage.files size = found.listed entry.path size
  opens : ∀ size, (storage.openStore entry size).1 = some entry.key
  keeps : ∀ size, (storage.openStore entry size).2.Keeps entry home (found.openStore entry size).2

/-- An entry that is kept is offered while no store is open. -/
theorem Keeps.offers (h : storage.Keeps entry home ledger) (hclosed : ledger.store? = none) :
    storage.Offers entry home ledger where
  closed := hclosed
  dataBytes_eq := h.stands.dataBytes_eq
  listed_eq := h.stands.listed_eq
  opens size := by
    rw [(h.openStore size).1, Ledger.openStore, hclosed]
  keeps size := (h.openStore size).2.1

/-- Where there is no data file an empty one is offered. -/
theorem offers_of_vacant {label? : Option BlockStore.Label}
    (hclosed : storage.store? entry.key = none) (h : entry.Vacant storage.files home label?) :
    storage.Offers entry home { data := storage.files.contents.length, label? } := by
  have hprepare : storage.prepare entry = storage := by
    rw [Storage.prepare, FileTree.makeDirectories_of_usable h.usable]
  have hopened (size : Nat) := openStore_of_vacant hclosed (hprepare.symm ▸ h) size
  rw [hprepare] at hopened
  constructor
  case closed => rfl
  case dataBytes_eq =>
    have habsent : storage.files.pathExists entry.dataPath = false := by
      rw [FileTree.pathExists_of_locate h.dataPlace, h.dataFree]
      rfl
    obtain ⟨error, herror⟩ := FileTree.bytesOf_of_absent habsent
    rw [CacheEntry.dataBytes, herror]
    rfl
  case listed_eq => exact CacheEntry.listed_eq_of_says h.sidecarPlace h.sidecar
  case opens => exact fun size => (hopened size).1
  case keeps => exact fun size => (hopened size).2.1

/-- So is one for an entry that has never been used, if a store can be opened. -/
theorem Untouched.offers (h : storage.Untouched entry) {size : Nat}
    (hopens : (storage.openStore entry size).1.isSome = true) :
    ∃ (home : List String) (data : FileId), storage.Offers entry home { data } := by
  rcases h.vacant size with hrefused | ⟨home, hvacant⟩
  · rw [hrefused] at hopens
    cases hopens
  · refine ⟨home, (storage.prepare entry).files.contents.length, ?_⟩
    have hopened (size : Nat) := openStore_of_vacant h.closed hvacant size
    constructor
    case closed => rfl
    case dataBytes_eq =>
      have habsent := (storage.files.grows_makeDirectories entry.directory).absent h.noData
      obtain ⟨error, herror⟩ := FileTree.bytesOf_of_absent habsent
      rw [CacheEntry.dataBytes, herror]
      rfl
    case listed_eq => exact h.listed_eq_nil
    case opens => exact fun size => (hopened size).1
    case keeps => exact fun size => (hopened size).2.1

/-- **What is found after the damage**: the sidecar as it was, and what remains of the data file. -/
theorem Keeps.damaged (h : storage.Keeps entry home ledger)
    (hdamage : entry.Damaged storage.files later.files) (hclosed : later.store? entry.key = none) :
    ∃ left : Ledger, later.Offers entry home left ∧ left.label? = ledger.label? ∧
      left.file.Remains ledger.file := by
  generalize hfiles : later.files = files at hdamage
  cases hdamage with
  | removed hbytes =>
    exact ⟨_, offers_of_vacant hclosed (hfiles ▸ h.stands.remove), rfl,
      FileContent.remains_empty _⟩
  | cut kept hbytes hwrite =>
    rw [h.stands.bytesOf_dataPath] at hbytes
    obtain rfl := Except.ok.inj hbytes
    have hstands := (h.stands.rewrite hwrite).setStore none
    have hkeeps : later.Keeps entry home _ :=
      ⟨hfiles.symm ▸ hstands, hclosed, fun store hopen => by cases hopen⟩
    exact ⟨_, hkeeps.offers rfl, rfl, FileContent.remains_take _ _⟩

end Storage

namespace Ledger

open BlockStore

variable {content : Bytes} {ledger left : Ledger} {entry : CacheEntry} {index offset : Nat}

/-- The data file can hold the block behind a block of a source. -/
def Followed (size index : Nat) : Prop :=
  (gridFor size).start (index + 1) < size ∧ Storable size (index + 1)

instance (size index : Nat) : Decidable (Followed size index) :=
  inferInstanceAs (Decidable (_ ∧ _))

/-- A store is open for the size of a content, and the blocks that it lists are right: as far as
the file reaches, and to their ends if the next block can be stored. -/
structure Sparse (content : Bytes) (ledger : Ledger) : Prop where
  exists_store : ∃ store, ledger.store? = some store ∧ store.size = content.length ∧
    ∀ index ∈ store.filled, ∀ offset, (gridFor content.length).Covers index offset →
      offset < ledger.file.size ∨ Followed content.length index →
        content[offset]? = some (ledger.file.byte offset)

/-- Where no byte of the file is anything else than a byte of the content or a zero, a store may be
opened whose listed blocks have lost nothing but zeros, unless they are not followed. -/
theorem sparse_openStore {contents : String → Nat → Bytes} {known : String → Nat → Prop}
    (htraced : ledger.Traced contents known) (hclosed : ledger.store? = none)
    (hlabel : left.label? = ledger.label?) (hleft : left.store? = none)
    (hremains : left.file.Remains ledger.file)
    (hcontent : contents entry.path content.length = content)
    (hsafe : ∀ index ∈ left.listed entry.path content.length, ∀ offset,
      (gridFor content.length).Covers index offset → left.file.size ≤ offset →
        content[offset]? ≠ some 0 → ¬Followed content.length index) :
    (left.openStore entry content.length).2.Sparse content := by
  rw [Ledger.openStore, hleft]
  refine ⟨_, rfl, rfl, ?_⟩
  intro index hindex offset hcovers hreach
  have hlisted : index ∈ ledger.listed entry.path content.length := by
    rw [listed, ← hlabel]
    exact hindex
  have hbears := (htraced.bears_of_listed hclosed hlisted).1
  rw [hcontent] at hbears
  dsimp only
  rw [hremains offset]
  by_cases hinside : offset < left.file.size
  · rw [if_pos hinside]
    exact hbears.byte_eq offset hcovers
  · rw [if_neg hinside]
    by_cases hzero : content[offset]? = some 0
    · exact hzero
    · exact absurd (hreach.resolve_left hinside)
        (hsafe index hindex offset hcovers (Nat.not_lt.mp hinside) hzero)

namespace Sparse

/-- What is loaded is right. -/
theorem loadBlock (h : ledger.Sparse content) (index : Nat) :
    (ledger.loadBlock index).2.Sparse content ∧
      ∀ data, (ledger.loadBlock index).1 = some data → data = blockOf content index := by
  obtain ⟨store, hopen, hsize, hright⟩ := h.exists_store
  by_cases hindex : index ∈ store.filled
  case neg =>
    rw [loadBlock_of_not_mem hopen hindex]
    exact ⟨h, fun data hdata => by cases hdata⟩
  by_cases hhas : ledger.file.HasBlock content.length index
  · rw [loadBlock_of_hasBlock hopen hsize hindex hhas]
    refine ⟨h, fun data hdata => ?_⟩
    cases hdata
    refine (FileContent.read_eq_blockOf_iff hhas).mpr fun offset hcovers => ?_
    have hfull := hhas.2
    have hbegin := hcovers.1
    have hend := hcovers.2
    exact hright index hindex offset hcovers (.inl (by omega))
  · rw [loadBlock_of_not_hasBlock hopen hsize hindex hhas]
    refine ⟨⟨_, rfl, hsize, ?_⟩, fun data hdata => by cases hdata⟩
    intro other hother
    exact hright other (List.mem_filter.mp hother).1

/-- A right block may be stored.  It makes the file longer only where the blocks before it are
followed. -/
theorem saveBlock (h : ledger.Sparse content)
    (hinside : (gridFor content.length).start index < content.length) :
    (ledger.saveBlock index (blockOf content index)).Sparse content := by
  obtain ⟨store, hopen, hsize, hright⟩ := h.exists_store
  have hwidth : (blockOf content index).length = (gridFor content.length).width index :=
    length_blockOf content index
  by_cases hstorable : Storable content.length index
  case neg =>
    rw [saveBlock_of_not_storable hopen hsize hwidth hstorable]
    exact h
  rw [saveBlock_of_storable hopen hsize hwidth hstorable]
  refine ⟨_, rfl, hsize, ?_⟩
  intro other hother offset hcovers hreach
  dsimp only at hreach ⊢
  have hshort : (blockOf content index).length ≤ blockSize :=
    hwidth.symm ▸ (gridFor content.length).width_le index
  by_cases hsame : other = index
  · subst hsame
    exact (FileContent.bears_write_self hstorable rfl).byte_eq offset hcovers
  · have hold := hright other ((BlockSet.mem_insert.mp hother).resolve_left hsame) offset hcovers
    rw [FileContent.byte_write_block hshort hcovers, if_neg (fun hat => hsame hat.1.symm)]
    apply hold
    rcases hreach with hreach | hfollowed
    · rw [FileContent.size_write] at hreach
      split at hreach
      · exact .inl hreach
      · rcases Nat.lt_or_ge offset ledger.file.size with hshorter | hlonger
        · exact .inl hshorter
        · right
          -- What was written reaches behind the offset, so it is a block behind it.
          have hbehind : other + 1 ≤ index := by
            apply Nat.lt_of_le_of_ne _ hsame
            apply Nat.le_of_not_lt
            intro hless
            have hnext := (gridFor content.length).start_mono (show index + 1 ≤ other from hless)
            have hbegin := hcovers.1
            rw [BlockGrid.start_succ, blockSize_gridFor] at hnext
            omega
          have hstart := (gridFor content.length).start_mono hbehind
          refine ⟨Nat.lt_of_le_of_lt hstart hinside, hstorable.of_le hbehind hinside⟩
    · exact .inr hfollowed

end Sparse

/-- If the first store of an entry saves one block, it leaves a sidecar file that lists it. -/
theorem label_of_first_block (entry : CacheEntry) (data : FileId) {size : Nat} {block : Bytes}
    (hfull : block.length = (gridFor size).width index) (hstorable : Storable size index) :
    let opened := (Ledger.openStore { data } entry size).2
    ((opened.loadBlock index).2.saveBlock index block).release.label? =
      some { path := entry.path, size, blocks := [index] } := by
  intro opened
  have hopened : opened.store? =
      some { data, path := entry.path, sidecarPath := entry.sidecarPath, size, filled := [] } := rfl
  rw [loadBlock_of_not_mem hopened List.not_mem_nil,
    saveBlock_of_storable hopened rfl hfull hstorable]
  rfl

/-- A store is open for the size of a content, and lists a block of which a byte reads as zero. -/
structure Hollow (content : Bytes) (index offset : Nat) (ledger : Ledger) : Prop where
  exists_store : ∃ store, ledger.store? = some store ∧ store.size = content.length ∧
    index ∈ store.filled
  byte_eq : ledger.file.byte offset = 0

/-- What is lost of a listed block reads as zeros. -/
theorem hollow_openStore {file : FileContent} (hleft : left.store? = none)
    (hremains : left.file.Remains file)
    (hindex : index ∈ left.listed entry.path content.length) (hlost : left.file.size ≤ offset) :
    (left.openStore entry content.length).2.Hollow content index offset ∧
      (left.openStore entry content.length).2.file.size ≤ offset := by
  rw [Ledger.openStore, hleft]
  refine ⟨⟨⟨_, rfl, rfl, hindex⟩, ?_⟩, hlost⟩
  exact (hremains offset).trans (if_neg (Nat.not_lt.mpr hlost))

namespace Hollow

/-- The block behind is not found, and when it is stored the data file gets long enough for the
listed block. -/
theorem saveBlock_next (h : ledger.Hollow content index offset)
    (hlost : ledger.file.size ≤ offset) (hcovers : (gridFor content.length).Covers index offset)
    (hfollowed : Followed content.length index) :
    (ledger.loadBlock (index + 1)).1 = none ∧
      let saved := (ledger.loadBlock (index + 1)).2.saveBlock (index + 1)
        (blockOf content (index + 1))
      saved.Hollow content index offset ∧ saved.file.HasBlock content.length index := by
  obtain ⟨store, hopen, hsize, hindex⟩ := h.exists_store
  obtain ⟨hinside, hstorable⟩ := hfollowed
  have hwidth : (blockOf content (index + 1)).length = (gridFor content.length).width (index + 1) :=
    length_blockOf content (index + 1)
  have hsome : 0 < (gridFor content.length).width (index + 1) :=
    Nat.lt_min.mpr ⟨Nat.pos_of_ne_zero blockSize_ne_zero, Nat.sub_pos_of_lt hinside⟩
  have hnext := (gridFor content.length).start_succ index
  have hthis := (gridFor content.length).width_le index
  have hbegin := hcovers.1
  have hend := hcovers.2
  have hshort : ¬ledger.file.HasBlock content.length (index + 1) := by
    intro hhas
    have hfull := hhas.2
    omega
  have hload : ∃ filled, index ∈ filled ∧ ledger.loadBlock (index + 1) =
      (none, { ledger with store? := some { store with filled } }) := by
    by_cases hlisted : index + 1 ∈ store.filled
    · refine ⟨_, List.mem_filter.mpr ⟨hindex, ?_⟩,
        loadBlock_of_not_hasBlock hopen hsize hlisted hshort⟩
      simp
    · exact ⟨store.filled, hindex, by rw [loadBlock_of_not_mem hopen hlisted, ← hopen]⟩
  obtain ⟨filled, hmem, hload⟩ := hload
  rw [hload]
  refine ⟨rfl, ?_⟩
  have hopened : Ledger.store? { ledger with store? := some { store with filled } } =
      some { store with filled } := rfl
  dsimp only
  rw [saveBlock_of_storable hopened hsize hwidth hstorable]
  refine ⟨⟨⟨_, rfl, hsize, BlockSet.mem_insert.mpr (.inr hmem)⟩, ?_⟩, ?_, ?_⟩
  · dsimp only
    rw [FileContent.byte_write, if_neg, h.byte_eq]
    omega
  · exact hstorable.of_le (Nat.le_succ index) hinside
  · have hne : blockOf content (index + 1) ≠ [] := List.ne_nil_of_length_pos (hwidth ▸ hsome)
    dsimp only
    rw [FileContent.size_write, if_neg hne]
    omega

/-- Then the listed block is found, with the zero in it. -/
theorem loadBlock (h : ledger.Hollow content index offset)
    (hhas : ledger.file.HasBlock content.length index)
    (hcovers : (gridFor content.length).Covers index offset) :
    ∃ data, (ledger.loadBlock index).1 = some data ∧
      data[offset - (gridFor content.length).start index]? = some 0 := by
  obtain ⟨store, hopen, hsize, hindex⟩ := h.exists_store
  have hfull := hhas.2
  have hbegin := hcovers.1
  have hend := hcovers.2
  rw [loadBlock_of_hasBlock hopen hsize hindex hhas]
  refine ⟨_, rfl, ?_⟩
  rw [FileContent.getElem?_read, if_pos (by omega), Nat.add_sub_cancel' hbegin, h.byte_eq]

end Hollow

end Ledger

end PspBoot
