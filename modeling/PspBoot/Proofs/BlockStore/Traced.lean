import PspBoot.Proofs.BlockStore.Lease

/-!
# Where the blocks of an entry come from

Stores of several paths and sizes may have been open on one data file, one after the other, and each
has written blocks of its own content.  `ledger.Traced contents known` says what is left of them.
The blocks that the open store lists are those of its content.  So are the blocks that the sidecar
file lists, except for the bytes that the open store has written over (`Overwrites`), which can only
be if it is a store of another path or size.

Whoever opens a store while none is open finds nothing written over.  But the sidecar file of a
store that has been closed is still believed while a later one is writing (`listed_block_iff`).
-/

namespace PspBoot

namespace Ledger

open BlockStore

variable {contents : String → Nat → Bytes} {known : String → Nat → Prop} {ledger : Ledger}
  {store : BlockStore} {entry : CacheEntry} {path : String} {size index offset : Nat}

/-- A byte that a sidecar file lists has been written over by the open store. -/
def Overwrites (store : BlockStore) (label : Label) (index offset : Nat) : Prop :=
  ¬(store.path = label.path ∧ store.size = label.size) ∧ index ∈ store.filled ∧ offset < store.size

/-- All blocks that are listed are those of a content, as far as they have not been written over. -/
structure Traced (contents : String → Nat → Bytes) (known : String → Nat → Prop)
    (ledger : Ledger) : Prop where
  store_known : ∀ store, ledger.store? = some store → known store.path store.size
  filled : ∀ store, ledger.store? = some store → ∀ index ∈ store.filled,
    ledger.file.Bears store.size (contents store.path store.size) index
  label_known : ∀ label, ledger.label? = some label → known label.path label.size
  has : ∀ label, ledger.label? = some label → ∀ index ∈ label.blocks,
    ledger.file.HasBlock label.size index
  labelled : ∀ label, ledger.label? = some label → ∀ index ∈ label.blocks,
    ∀ offset, (gridFor label.size).Covers index offset →
      (contents label.path label.size)[offset]? = some (ledger.file.byte offset) ∨
        ∃ store, ledger.store? = some store ∧ Overwrites store label index offset
  settled : ∀ store, ledger.store? = some store → store.unsaved = false → store.filled ≠ [] →
    ∃ label, ledger.label? = some label ∧ store.path = label.path ∧ store.size = label.size

/-- A block that a store of a path and a size may save: where the data file can hold it, it is the
block of the content. -/
def Genuine (contents : String → Nat → Bytes) (path : String) (size index : Nat)
    (block : Bytes) : Prop :=
  Storable size index → block = (gridFor size).blockOf (contents path size) index

namespace Traced

/-- Nothing is wrong where nothing is listed. -/
theorem of_blank (hlabel : ledger.label? = none) (hstore : ledger.store? = none) :
    ledger.Traced contents known := by
  constructor
  all_goals simp [hlabel, hstore]

/-- The store may be exchanged for one that lists the same blocks of the same content. -/
theorem setStore (h : ledger.Traced contents known) (hopen : ledger.store? = some store)
    {changed : BlockStore} (hpath : changed.path = store.path) (hsize : changed.size = store.size)
    (hfilled : changed.filled = store.filled) (hunsaved : changed.unsaved = store.unsaved) :
    Traced contents known { ledger with store? := some changed } where
  store_known := by
    intro other hother
    cases hother
    rw [hpath, hsize]
    exact h.store_known store hopen
  filled := by
    intro other hother
    cases hother
    rw [hpath, hsize, hfilled]
    exact h.filled store hopen
  label_known := h.label_known
  has := h.has
  labelled := by
    intro label hlabel index hindex offset hcovers
    rcases h.labelled label hlabel index hindex offset hcovers with hright | ⟨old, hold, hover⟩
    · exact .inl hright
    · cases hopen.symm.trans hold
      refine .inr ⟨changed, rfl, ?_⟩
      rw [Overwrites, hpath, hsize, hfilled]
      exact hover
  settled := by
    intro other hother
    cases hother
    rw [hpath, hsize, hfilled, hunsaved]
    exact h.settled store hopen

/-- The blocks that are found listed while no store is open are right. -/
theorem bears_of_listed (h : ledger.Traced contents known) (hclosed : ledger.store? = none)
    (hindex : index ∈ ledger.listed path size) :
    ledger.file.Bears size (contents path size) index ∧
      ∃ label, ledger.label? = some label ∧ path = label.path ∧ size = label.size := by
  rw [listed] at hindex
  cases hlabel : ledger.label? with
  | none =>
    rw [hlabel] at hindex
    cases hindex
  | some label =>
    rw [hlabel] at hindex
    obtain ⟨rfl, rfl, hmem, -⟩ := Sidecar.mem_listed_encode hindex
    refine ⟨⟨h.has label hlabel index hmem, fun offset hcovers => ?_⟩, label, rfl, rfl, rfl⟩
    rcases h.labelled label hlabel index hmem offset hcovers with hright | ⟨store, hstore, -⟩
    · exact hright
    · rw [hclosed] at hstore
      cases hstore

theorem openStore (h : ledger.Traced contents known) (hknown : known entry.path size) :
    (ledger.openStore entry size).2.Traced contents known := by
  unfold Ledger.openStore
  cases hopen : ledger.store? with
  | some store =>
    dsimp only
    split
    · exact h.setStore hopen rfl rfl rfl rfl
    · exact h
  | none =>
    constructor
    case store_known =>
      intro store hstore
      cases hstore
      exact hknown
    case filled =>
      intro store hstore index hindex
      cases hstore
      exact (h.bears_of_listed hopen hindex).1
    case label_known => exact h.label_known
    case has => exact h.has
    case labelled =>
      intro label hlabel index hindex offset hcovers
      rcases h.labelled label hlabel index hindex offset hcovers with hright | ⟨old, hold, -⟩
      · exact .inl hright
      · rw [hopen] at hold
        cases hold
    case settled =>
      intro store hstore _ hfilled
      cases hstore
      obtain ⟨index, hindex⟩ := List.exists_mem_of_ne_nil _ hfilled
      exact (h.bears_of_listed hopen hindex).2

/-- A listed block is always loaded, and nothing is struck off the list. -/
theorem loadBlock_eq (h : ledger.Traced contents known) (hopen : ledger.store? = some store)
    (index : Nat) :
    ledger.loadBlock index =
      (if index ∈ store.filled then
        some ((gridFor store.size).blockOf (contents store.path store.size) index)
      else none, ledger) := by
  by_cases hindex : index ∈ store.filled
  · have hbears := h.filled store hopen index hindex
    rw [if_pos hindex, loadBlock_of_hasBlock hopen rfl hindex hbears.has, hbears.read_eq]
  · rw [if_neg hindex, loadBlock_of_not_mem hopen hindex]

theorem loadBlock (h : ledger.Traced contents known) (index : Nat) :
    (ledger.loadBlock index).2.Traced contents known := by
  cases hopen : ledger.store? with
  | none =>
    rw [Ledger.loadBlock, hopen]
    exact h
  | some store =>
    rw [h.loadBlock_eq hopen]
    exact h

/-- A block of the content of the store is written.  What the sidecar file lists of another content
is lost as far as the block reaches. -/
theorem saveBlock (h : ledger.Traced contents known)
    (hlength : ∀ path size, known path size → (contents path size).length = size)
    (hopen : ledger.store? = some store) {block : Bytes}
    (hfull : block.length = (gridFor store.size).width index)
    (hblock : Genuine contents store.path store.size index block) :
    (ledger.saveBlock index block).Traced contents known := by
  by_cases hstorable : Storable store.size index
  case neg =>
    rw [saveBlock_of_not_storable hopen rfl hfull hstorable]
    exact h
  rw [saveBlock_of_storable hopen rfl hfull hstorable, hblock hstorable]
  have hstore := hlength _ _ (h.store_known store hopen)
  have hwidth : ((gridFor store.size).blockOf (contents store.path store.size) index).length =
      (gridFor store.size).width index := BlockGrid.length_blockOf hstore.symm index
  have hshort : ((gridFor store.size).blockOf (contents store.path store.size) index).length ≤
      blockSize := hwidth.symm ▸ (gridFor store.size).width_le index
  constructor
  case store_known =>
    intro other hother
    cases hother
    exact h.store_known store hopen
  case filled =>
    intro other hother kept hkept
    cases hother
    by_cases hsame : kept = index
    · subst hsame
      exact FileContent.bears_write_self hstorable hstore
    · have hbears := h.filled store hopen kept
        ((BlockSet.mem_insert.mp hkept).resolve_left hsame)
      exact hbears.write_of_ne hshort (Ne.symm hsame)
  case label_known => exact h.label_known
  case has =>
    intro label hlabel kept hkept
    exact (h.has label hlabel kept hkept).write _ _
  case labelled =>
    intro label hlabel kept hkept offset hcovers
    have hold := h.labelled label hlabel kept hkept offset hcovers
    -- What was written over stays so.
    have hover {old : BlockStore} (hstore : ledger.store? = some old)
        (hover : Overwrites old label kept offset) :
        Overwrites { store with filled := BlockSet.insert index store.filled, unsaved := true }
          label kept offset := by
      cases hopen.symm.trans hstore
      exact ⟨hover.1, BlockSet.mem_insert.mpr (.inr hover.2.1), hover.2.2⟩
    rw [FileContent.byte_write_block hshort hcovers]
    by_cases hat : index = kept ∧
        offset < (gridFor store.size).start index +
          ((gridFor store.size).blockOf (contents store.path store.size) index).length
    case neg =>
      rw [if_neg hat]
      rcases hold with hright | ⟨old, hstore, hold⟩
      · exact .inl hright
      · exact .inr ⟨_, rfl, hover hstore hold⟩
    obtain ⟨rfl, hreach⟩ := hat
    rw [if_pos ⟨rfl, hreach⟩]
    have hinside : (gridFor store.size).Covers index offset := by
      refine ⟨hcovers.1, ?_⟩
      rw [← hwidth]
      exact hreach
    by_cases hsame : store.path = label.path ∧ store.size = label.size
    · left
      have hbyte : _ = some ((ledger.file.write _ _).byte offset) :=
        FileContent.byte_write_blockOf hstore hinside
      rw [FileContent.byte_write_block hshort hcovers, if_pos ⟨rfl, hreach⟩] at hbyte
      rw [← hsame.1, ← hsame.2]
      exact hbyte
    · exact .inr ⟨_, rfl, hsame, BlockSet.mem_insert.mpr (.inl rfl), hinside.lt_total⟩
  case settled =>
    intro other hother hsaved
    cases hother
    cases hsaved

theorem saveSidecar (h : ledger.Traced contents known) : ledger.saveSidecar.Traced contents known := by
  unfold Ledger.saveSidecar
  cases hopen : ledger.store? with
  | none => exact h
  | some store =>
    constructor
    case store_known =>
      intro other hother
      cases hother
      exact h.store_known store hopen
    case filled =>
      intro other hother
      cases hother
      exact h.filled store hopen
    case label_known =>
      intro label hlabel
      cases hlabel
      exact h.store_known store hopen
    case has =>
      intro label hlabel index hindex
      cases hlabel
      exact (h.filled store hopen index hindex).has
    case labelled =>
      intro label hlabel index hindex offset hcovers
      cases hlabel
      exact .inl ((h.filled store hopen index hindex).byte_eq offset hcovers)
    case settled =>
      intro other hother _ _
      cases hother
      exact ⟨_, rfl, rfl, rfl⟩

/-- A store whose sidecar file is up to date has written over nothing that is listed. -/
theorem close (h : ledger.Traced contents known)
    (hsaved : ∀ store, ledger.store? = some store → store.unsaved = false) :
    Traced contents known { ledger with store? := none } where
  store_known := by
    intro store hstore
    cases hstore
  filled := by
    intro store hstore
    cases hstore
  label_known := h.label_known
  has := h.has
  labelled := by
    intro label hlabel index hindex offset hcovers
    rcases h.labelled label hlabel index hindex offset hcovers with hright | ⟨store, hstore, hover⟩
    · exact .inl hright
    · obtain ⟨hother, hfilled, -⟩ := hover
      obtain ⟨own, hown, hpath, hsize⟩ := h.settled store hstore (hsaved store hstore)
        (List.ne_nil_of_mem hfilled)
      cases hlabel.symm.trans hown
      exact absurd ⟨hpath, hsize⟩ hother
  settled := by
    intro store hstore
    cases hstore

theorem release (h : ledger.Traced contents known) : ledger.release.Traced contents known := by
  unfold Ledger.release
  cases hopen : ledger.store? with
  | none => exact h
  | some store =>
    dsimp only
    by_cases hheld : 1 < store.holders
    · rw [if_pos hheld]
      exact h.setStore hopen rfl rfl rfl rfl
    · rw [if_neg hheld]
      by_cases hunsaved : store.unsaved = true
      · rw [if_pos hunsaved]
        apply h.saveSidecar.close
        intro saved hsaved
        rw [Ledger.saveSidecar, hopen] at hsaved
        cases hsaved
        rfl
      · rw [if_neg hunsaved]
        apply h.close
        intro saved hsaved
        cases hopen.symm.trans hsaved
        exact Bool.eq_false_iff.mpr hunsaved

/-- Users that save blocks of the right content keep all blocks traced. -/
theorem stable (directory : String)
    (hlength : ∀ path size, known path size → (contents path size).length = size) :
    Stable (Traced contents known) directory known (Genuine contents) where
  openStore h hknown := h.openStore hknown
  loadBlock index h := h.loadBlock index
  saveBlock h hopen _ _ hfull hgood := h.saveBlock hlength hopen hfull hgood
  saveSidecar h := h.saveSidecar
  release h := h.release

/-- **When a listed block is right.**  The data file has the block of the content that the sidecar
file was written for, unless the open store is of another path or size, has written the same block,
and its content differs from the listed one where both have a byte. -/
theorem listed_block_iff (h : ledger.Traced contents known)
    (hindex : index ∈ ledger.listed path size) :
    ledger.file.read ((gridFor size).start index) ((gridFor size).width index) =
        (gridFor size).blockOf (contents path size) index ↔
      ∀ store, ledger.store? = some store → ¬(store.path = path ∧ store.size = size) →
        index ∈ store.filled → ∀ offset, (gridFor size).Covers index offset →
          (gridFor store.size).Covers index offset →
            (contents path size)[offset]? = (contents store.path store.size)[offset]? := by
  rw [listed] at hindex
  cases hlabel : ledger.label? with
  | none =>
    rw [hlabel] at hindex
    cases hindex
  | some label =>
    rw [hlabel] at hindex
    obtain ⟨rfl, rfl, hmem, -⟩ := Sidecar.mem_listed_encode hindex
    rw [FileContent.read_eq_blockOf_iff (h.has label hlabel index hmem)]
    constructor
    · intro hright store hstore _ hfilled offset hcovers hinside
      rw [hright offset hcovers, (h.filled store hstore index hfilled).byte_eq offset hinside]
    · intro hagree offset hcovers
      rcases h.labelled label hlabel index hmem offset hcovers with hright | ⟨store, hstore, hover⟩
      · exact hright
      · obtain ⟨hother, hfilled, hinside⟩ := hover
        have hwithin : (gridFor store.size).Covers index offset := by
          rw [← hcovers.indexOf_eq]
          exact BlockGrid.covers_indexOf blockSize_ne_zero hinside
        rw [hagree store hstore hother hfilled offset hcovers hwithin]
        exact (h.filled store hstore index hfilled).byte_eq offset hwithin

end Traced

end Ledger

end PspBoot
