import PspBoot.Proofs.BlockStore.Lease

/-!
# Entries that are used for one size

As long as an entry is only ever used for one path and one size, a block that has been stored is
there for good: it stays listed, by the open store or by the sidecar file, and its bytes are written
once (`Steady`).  What the blocks are does not matter.

Every operation keeps an entry steady, and keeps the blocks that are there as they are (`Extends`).
-/

namespace PspBoot

/-- Some of the `len` bytes from an offset on are bytes of a block. -/
def BlockGrid.Touches (grid : BlockGrid) (index offset len : Nat) : Prop :=
  grid.start index < offset + len ∧ offset < grid.start index + grid.width index

instance (grid : BlockGrid) (index offset len : Nat) : Decidable (grid.Touches index offset len) :=
  inferInstanceAs (Decidable (_ ∧ _))

/-- Blocks of different numbers do not touch. -/
theorem BlockGrid.not_touches (grid : BlockGrid) {index other len : Nat}
    (hlength : len ≤ grid.blockSize) (hne : other ≠ index) :
    ¬grid.Touches index (grid.start other) len := by
  rintro ⟨hbegin, hend⟩
  have hwidth := grid.width_le index
  rcases Nat.lt_or_gt_of_ne hne with hless | hmore
  · have hnext := grid.start_mono (show other + 1 ≤ index from hless)
    rw [start_succ] at hnext
    omega
  · have hnext := grid.start_mono (show index + 1 ≤ other from hmore)
    rw [start_succ] at hnext
    omega

namespace FileContent

open BlockStore

variable {file : FileContent} {size index written : Nat} {data : Bytes}

/-- The bytes that a file has of a block. -/
def block (file : FileContent) (size index : Nat) : Bytes :=
  file.read ((gridFor size).start index) ((gridFor size).width index)

/-- All that was ever written of a block, the latest first. -/
def writesOf (file : FileContent) (size index : Nat) : List (Nat × Bytes) :=
  file.extents.filter fun extent => (gridFor size).Touches index extent.1 extent.2.length

/-- A block that is written has the bytes that were written, and has been written once more. -/
theorem block_write_self (file : FileContent) (hlength : data.length = (gridFor size).width index)
    (hsome : (gridFor size).start index < size) :
    (file.write ((gridFor size).start index) data).block size index = data ∧
      (file.write ((gridFor size).start index) data).writesOf size index =
        ((gridFor size).start index, data) :: file.writesOf size index := by
  have hcovers : (gridFor size).Covers index ((gridFor size).start index) :=
    BlockGrid.covers_start blockSize_ne_zero hsome
  have hend := hcovers.2
  rw [← hlength] at hend
  have htouches : (gridFor size).Touches index ((gridFor size).start index) data.length :=
    ⟨hend, hcovers.2⟩
  have hne : data ≠ [] := by
    rintro rfl
    simp at hend
  constructor
  · rw [block, ← hlength]
    exact read_write_self _ _ _
  · rw [writesOf, write, if_neg hne, writesOf]
    exact List.filter_cons_of_pos (decide_eq_true htouches)

/-- The other blocks stay, and are not written. -/
theorem block_write_of_ne (file : FileContent) (size : Nat) (hlength : data.length ≤ blockSize)
    (hne : written ≠ index) :
    (file.HasBlock size index →
        (file.write ((gridFor size).start written) data).block size index =
          file.block size index) ∧
      (file.write ((gridFor size).start written) data).writesOf size index =
        file.writesOf size index := by
  have hapart := (gridFor size).not_touches hlength hne
  constructor
  · intro hhas
    have hfull := hhas.2
    rw [block, block]
    rcases Nat.eq_zero_or_pos ((gridFor size).width index) with hempty | hsome
    · rw [hempty, read_zero, read_zero]
    · apply read_write_disjoint (by omega)
      rw [BlockGrid.Touches] at hapart
      omega
  · rw [writesOf, write, writesOf]
    split
    · rfl
    · exact List.filter_cons_of_neg (by simpa using hapart)

end FileContent

namespace Ledger

open BlockStore

variable {ledger ledger' ledger'' : Ledger} {store : BlockStore} {entry : CacheEntry}
  {path : String} {size index : Nat} {data : Bytes}

/-- A block is listed: by the open store, or by the sidecar file if no store is open. -/
def Lists (ledger : Ledger) (index : Nat) : Prop :=
  match ledger.store? with
  | some store => index ∈ store.filled
  | none => ∃ label, ledger.label? = some label ∧ index ∈ label.blocks

theorem lists_iff (hopen : ledger.store? = some store) :
    ledger.Lists index ↔ index ∈ store.filled := by
  rw [Lists, hopen]

/-- All blocks that are listed are listed later on, with the same bytes. -/
def Extends (size : Nat) (ledger ledger' : Ledger) : Prop :=
  ∀ index, ledger.Lists index →
    ledger'.Lists index ∧ ledger'.file.block size index = ledger.file.block size index

theorem Extends.refl (size : Nat) (ledger : Ledger) : ledger.Extends size ledger :=
  fun _ hlists => ⟨hlists, rfl⟩

theorem Extends.trans (h : ledger.Extends size ledger') (h' : ledger'.Extends size ledger'') :
    ledger.Extends size ledger'' := by
  intro index hlists
  obtain ⟨hfirst, hblock⟩ := h index hlists
  obtain ⟨hsecond, hblock'⟩ := h' index hfirst
  exact ⟨hsecond, hblock'.trans hblock⟩

/-- An entry is used for one path and one size alone.  What is listed is in the data file and was
written there once, and what is not was never written. -/
structure Steady (path : String) (size : Nat) (ledger : Ledger) : Prop where
  store_eq : ∀ store, ledger.store? = some store → store.path = path ∧ store.size = size
  label_eq : ∀ label, ledger.label? = some label → label.path = path ∧ label.size = size
  inside : ∀ store, ledger.store? = some store → ∀ index ∈ store.filled,
    index ≤ Sidecar.lastBlock size
  label_inside : ∀ label, ledger.label? = some label → ∀ index ∈ label.blocks,
    index ≤ Sidecar.lastBlock size
  saved : ∀ store, ledger.store? = some store → store.unsaved = false → ∀ index,
    index ∈ store.filled ↔ ∃ label, ledger.label? = some label ∧ index ∈ label.blocks
  has : ∀ index, ledger.Lists index → ledger.file.HasBlock size index
  written : ∀ index, ledger.Lists index →
    ledger.file.writesOf size index = [((gridFor size).start index, ledger.file.block size index)]
  unwritten : ∀ index, ¬ledger.Lists index → ledger.file.writesOf size index = []

namespace Steady

/-- Nothing has been written where nothing is listed. -/
theorem of_blank (hlabel : ledger.label? = none) (hstore : ledger.store? = none)
    (hfile : ledger.file = {}) : ledger.Steady path size := by
  have hnone (index : Nat) : ¬ledger.Lists index := by
    rw [Lists, hstore]
    rintro ⟨label, hopen, -⟩
    cases hlabel.symm.trans hopen
  constructor
  case has => exact fun index hlists => absurd hlists (hnone index)
  case written => exact fun index hlists => absurd hlists (hnone index)
  case unwritten =>
    intro index _
    rw [hfile]
    rfl
  all_goals simp [hlabel, hstore]

/-- The open store is exchanged for one that lists the same blocks. -/
theorem setStore (h : ledger.Steady path size) (hopen : ledger.store? = some store)
    {changed : BlockStore} (hpath : changed.path = store.path) (hsize : changed.size = store.size)
    (hfilled : changed.filled = store.filled) (hunsaved : changed.unsaved = store.unsaved) :
    Steady path size { ledger with store? := some changed } ∧
      ledger.Extends size { ledger with store? := some changed } := by
  have hlists (index : Nat) :
      Lists { ledger with store? := some changed } index ↔ ledger.Lists index := by
    rw [lists_iff hopen, ← hfilled]
    rfl
  refine ⟨?_, fun index hold => ⟨(hlists index).mpr hold, rfl⟩⟩
  constructor
  case store_eq =>
    intro other hother
    cases hother
    rw [hpath, hsize]
    exact h.store_eq store hopen
  case label_eq => exact h.label_eq
  case inside =>
    intro other hother
    cases hother
    rw [hfilled]
    exact h.inside store hopen
  case label_inside => exact h.label_inside
  case saved =>
    intro other hother
    cases hother
    rw [hfilled, hunsaved]
    exact h.saved store hopen
  case has => exact fun index hnew => h.has index ((hlists index).mp hnew)
  case written => exact fun index hnew => h.written index ((hlists index).mp hnew)
  case unwritten => exact fun index hnew => h.unwritten index fun hold => hnew ((hlists index).mpr hold)

/-- While no store is open, the sidecar file lists what there is. -/
theorem mem_listed_iff (h : ledger.Steady path size) (hclosed : ledger.store? = none)
    (hsize : size < UInt64.size) : index ∈ ledger.listed path size ↔ ledger.Lists index := by
  rw [Lists, hclosed]
  cases hlabel : ledger.label? with
  | none =>
    rw [listed, hlabel]
    simp
  | some label =>
    obtain ⟨rfl, rfl⟩ := h.label_eq label hlabel
    rw [mem_listed_of_label hlabel hsize (h.label_inside label hlabel)]
    simp

theorem openStore (h : ledger.Steady entry.path size) (hsize : size < UInt64.size) :
    (ledger.openStore entry size).1 = some entry.key ∧
      (ledger.openStore entry size).2.Steady entry.path size ∧
        ledger.Extends size (ledger.openStore entry size).2 := by
  unfold Ledger.openStore
  cases hopen : ledger.store? with
  | some store =>
    dsimp only
    rw [if_pos (h.store_eq store hopen).2]
    exact ⟨rfl, h.setStore hopen rfl rfl rfl rfl⟩
  | none =>
    have hlisted (index : Nat) : index ∈ ledger.listed entry.path size ↔ ledger.Lists index :=
      h.mem_listed_iff hopen hsize
    refine ⟨rfl, ?_, fun index hold => ⟨(hlisted index).mpr hold, rfl⟩⟩
    constructor
    case store_eq =>
      intro store hstore
      cases hstore
      exact ⟨rfl, rfl⟩
    case label_eq => exact h.label_eq
    case inside =>
      intro store hstore index hindex
      cases hstore
      have hold := (hlisted index).mp hindex
      rw [Lists, hopen] at hold
      obtain ⟨label, hlabel, hmem⟩ := hold
      exact h.label_inside label hlabel index hmem
    case label_inside => exact h.label_inside
    case saved =>
      intro store hstore _ index
      cases hstore
      rw [hlisted, Lists, hopen]
    case has => exact fun index hnew => h.has index ((hlisted index).mp hnew)
    case written => exact fun index hnew => h.written index ((hlisted index).mp hnew)
    case unwritten =>
      exact fun index hnew => h.unwritten index fun hold => hnew ((hlisted index).mpr hold)

/-- A listed block is always loaded, and stays listed. -/
theorem loadBlock_of_lists (h : ledger.Steady path size) (hopen : ledger.store? = some store)
    (hlists : ledger.Lists index) :
    ledger.loadBlock index = (some (ledger.file.block size index), ledger) := by
  rw [FileContent.block]
  exact loadBlock_of_hasBlock hopen (h.store_eq store hopen).2 ((lists_iff hopen).mp hlists)
    (h.has index hlists)

theorem loadBlock_of_not_lists (hlists : ¬ledger.Lists index) :
    ledger.loadBlock index = (none, ledger) := by
  cases hopen : ledger.store? with
  | none => rw [Ledger.loadBlock, hopen]
  | some store => exact loadBlock_of_not_mem hopen fun hfree => hlists ((lists_iff hopen).mpr hfree)

theorem loadBlock (h : ledger.Steady path size) (index : Nat) :
    (ledger.loadBlock index).2 = ledger := by
  cases hopen : ledger.store? with
  | none => rw [Ledger.loadBlock, hopen]
  | some store =>
    by_cases hlists : ledger.Lists index
    · rw [h.loadBlock_of_lists hopen hlists]
    · rw [loadBlock_of_not_lists hlists]

/-- A block that can be stored is listed with the others. -/
theorem lists_saveBlock (hopen : ledger.store? = some store) (hsize : store.size = size)
    (hfull : data.length = (gridFor size).width index) (hstorable : Storable size index)
    (other : Nat) :
    (ledger.saveBlock index data).Lists other ↔ other = index ∨ ledger.Lists other := by
  rw [saveBlock_of_storable hopen hsize hfull hstorable, lists_iff hopen]
  exact BlockSet.mem_insert

/-- The blocks that were listed stay as they were. -/
theorem extends_saveBlock (h : ledger.Steady path size) (hopen : ledger.store? = some store)
    (hfree : index ∉ store.filled) (hfull : data.length = (gridFor size).width index) :
    ledger.Extends size (ledger.saveBlock index data) := by
  have hsize := (h.store_eq store hopen).2
  by_cases hstorable : Storable size index
  case neg =>
    rw [saveBlock_of_not_storable hopen hsize hfull hstorable]
    exact .refl _ _
  intro other hold
  refine ⟨(lists_saveBlock hopen hsize hfull hstorable other).mpr (.inr hold), ?_⟩
  have hne : index ≠ other := by
    rintro rfl
    exact hfree ((lists_iff hopen).mp hold)
  have hshort : data.length ≤ blockSize := hfull ▸ (gridFor size).width_le index
  rw [saveBlock_of_storable hopen hsize hfull hstorable]
  exact (ledger.file.block_write_of_ne size hshort hne).1 (h.has other hold)

/-- A block is stored that was not there. -/
theorem saveBlock (h : ledger.Steady path size) (hopen : ledger.store? = some store)
    (hinside : (gridFor size).start index < size) (hfree : index ∉ store.filled)
    (hfull : data.length = (gridFor size).width index) :
    (ledger.saveBlock index data).Steady path size ∧
      ledger.Extends size (ledger.saveBlock index data) ∧
        (Storable size index → (ledger.saveBlock index data).Lists index ∧
          (ledger.saveBlock index data).file.block size index = data) := by
  obtain ⟨hpath, hsize⟩ := h.store_eq store hopen
  have hextends := h.extends_saveBlock hopen hfree hfull
  by_cases hstorable : Storable size index
  case neg =>
    rw [saveBlock_of_not_storable hopen hsize hfull hstorable] at hextends ⊢
    exact ⟨h, hextends, fun hother => absurd hother hstorable⟩
  have hlists := lists_saveBlock hopen hsize hfull hstorable
  have hshort : data.length ≤ blockSize := hfull ▸ (gridFor size).width_le index
  obtain ⟨hself, hwrites⟩ := ledger.file.block_write_self hfull hinside
  have hothers {other : Nat} (hne : index ≠ other) :=
    ledger.file.block_write_of_ne size hshort hne
  have hblank : ledger.file.writesOf size index = [] :=
    h.unwritten index fun hold => hfree ((lists_iff hopen).mp hold)
  rw [saveBlock_of_storable hopen hsize hfull hstorable] at hextends hlists ⊢
  refine ⟨?_, hextends, fun _ => ⟨(hlists index).mpr (.inl rfl), hself⟩⟩
  constructor
  case store_eq =>
    intro other hother
    cases hother
    exact ⟨hpath, hsize⟩
  case label_eq => exact h.label_eq
  case inside =>
    intro other hother kept hkept
    cases hother
    rcases BlockSet.mem_insert.mp hkept with rfl | hkept
    · exact le_lastBlock (BlockGrid.covers_start blockSize_ne_zero hinside)
    · exact h.inside store hopen kept hkept
  case label_inside => exact h.label_inside
  case saved =>
    intro other hother hsaved
    cases hother
    cases hsaved
  case has =>
    intro other hother
    rcases (hlists other).mp hother with rfl | hold
    · exact FileContent.hasBlock_write hstorable hfull
    · exact (h.has other hold).write _ _
  case written =>
    intro other hother
    by_cases hsame : index = other
    · subst hsame
      exact hwrites.trans (by rw [hblank, hself])
    · have hold := ((hlists other).mp hother).resolve_left (Ne.symm hsame)
      rw [(hextends other hold).2]
      exact (hothers hsame).2.trans (h.written other hold)
  case unwritten =>
    intro other hother
    obtain ⟨hne, hold⟩ := not_or.mp fun hnew => hother ((hlists other).mpr hnew)
    exact (hothers (Ne.symm hne)).2.trans (h.unwritten other hold)

theorem saveSidecar (h : ledger.Steady path size) :
    ledger.saveSidecar.Steady path size ∧ ledger.Extends size ledger.saveSidecar := by
  unfold Ledger.saveSidecar
  cases hopen : ledger.store? with
  | none => exact ⟨h, .refl _ _⟩
  | some store =>
    have hlists (index : Nat) : Lists { ledger with
        label? := some store.label, store? := some { store with unsaved := false } } index ↔
          ledger.Lists index := by
      rw [lists_iff hopen]
      rfl
    refine ⟨?_, fun index hold => ⟨(hlists index).mpr hold, rfl⟩⟩
    constructor
    case store_eq =>
      intro other hother
      cases hother
      exact h.store_eq store hopen
    case label_eq =>
      intro label hlabel
      cases hlabel
      exact h.store_eq store hopen
    case inside =>
      intro other hother
      cases hother
      exact h.inside store hopen
    case label_inside =>
      intro label hlabel
      cases hlabel
      exact h.inside store hopen
    case saved =>
      intro other hother _ index
      cases hother
      simp [BlockStore.label]
    case has => exact fun index hnew => h.has index ((hlists index).mp hnew)
    case written => exact fun index hnew => h.written index ((hlists index).mp hnew)
    case unwritten =>
      exact fun index hnew => h.unwritten index fun hold => hnew ((hlists index).mpr hold)

/-- A store whose sidecar file is up to date may be closed. -/
theorem close (h : ledger.Steady path size) (hopen : ledger.store? = some store)
    (hsaved : store.unsaved = false) :
    Steady path size { ledger with store? := none } ∧
      ledger.Extends size { ledger with store? := none } := by
  have hlists (index : Nat) : Lists { ledger with store? := none } index ↔ ledger.Lists index := by
    rw [lists_iff hopen, h.saved store hopen hsaved]
    rfl
  refine ⟨?_, fun index hold => ⟨(hlists index).mpr hold, rfl⟩⟩
  constructor
  case label_eq => exact h.label_eq
  case label_inside => exact h.label_inside
  case has => exact fun index hnew => h.has index ((hlists index).mp hnew)
  case written => exact fun index hnew => h.written index ((hlists index).mp hnew)
  case unwritten => exact fun index hnew => h.unwritten index fun hold => hnew ((hlists index).mpr hold)
  all_goals
    intro other hother
    cases hother

theorem release (h : ledger.Steady path size) :
    ledger.release.Steady path size ∧ ledger.Extends size ledger.release := by
  unfold Ledger.release
  cases hopen : ledger.store? with
  | none => exact ⟨h, .refl _ _⟩
  | some store =>
    dsimp only
    by_cases hheld : 1 < store.holders
    · rw [if_pos hheld]
      exact h.setStore hopen rfl rfl rfl rfl
    · rw [if_neg hheld]
      by_cases hunsaved : store.unsaved = true
      · rw [if_pos hunsaved]
        obtain ⟨hsaved, hextends⟩ := h.saveSidecar
        have hstore : ledger.saveSidecar.store? = some { store with unsaved := false } := by
          rw [Ledger.saveSidecar, hopen]
        obtain ⟨hclosed, hextends'⟩ := hsaved.close hstore rfl
        exact ⟨hclosed, hextends.trans hextends'⟩
      · rw [if_neg hunsaved]
        exact h.close hopen (Bool.eq_false_iff.mpr hunsaved)

end Steady

/-- An entry that is used for one size, with a block that is there for good. -/
structure Retains (path : String) (size index : Nat) (data : Bytes) (ledger : Ledger) : Prop where
  steady : ledger.Steady path size
  lists : ledger.Lists index
  block_eq : ledger.file.block size index = data

theorem Retains.extends (h : ledger.Retains path size index data)
    (hnext : ledger'.Steady path size ∧ ledger.Extends size ledger') :
    ledger'.Retains path size index data where
  steady := hnext.1
  lists := (hnext.2 index h.lists).1
  block_eq := (hnext.2 index h.lists).2.trans h.block_eq

/-- A store is open on an entry that is used for one size. -/
structure Serving (path : String) (size : Nat) (ledger : Ledger) : Prop where
  steady : ledger.Steady path size
  exists_store : ∃ store, ledger.store? = some store

/-- A block that is there is found. -/
theorem Serving.loadBlock_of_retains (h : ledger.Serving path size)
    (hretains : ledger.Retains path size index data) :
    (ledger.loadBlock index).1 = some data := by
  obtain ⟨store, hopen⟩ := h.exists_store
  rw [h.steady.loadBlock_of_lists hopen hretains.lists, hretains.block_eq]

/-- What is found is no longer than a block. -/
theorem Serving.length_of_loadBlock (h : ledger.Serving path size)
    (hload : (ledger.loadBlock index).1 = some data) :
    data.length ≤ (gridFor size).width index := by
  obtain ⟨store, hopen⟩ := h.exists_store
  by_cases hlists : ledger.Lists index
  · rw [h.steady.loadBlock_of_lists hopen hlists] at hload
    obtain rfl := Option.some.inj hload
    rw [FileContent.block, FileContent.length_read]
    exact Nat.min_le_left _ _
  · rw [Steady.loadBlock_of_not_lists hlists] at hload
    cases hload

/-- A block that is not found may be stored. -/
theorem Serving.saveBlock (h : ledger.Serving path size)
    (hinside : (gridFor size).start index < size) (hmiss : (ledger.loadBlock index).1 = none)
    (hfull : data.length = (gridFor size).width index) :
    (ledger.saveBlock index data).Serving path size ∧
      ledger.Extends size (ledger.saveBlock index data) ∧
        (Storable size index → (ledger.saveBlock index data).Retains path size index data) := by
  obtain ⟨store, hopen⟩ := h.exists_store
  have hfree : index ∉ store.filled := by
    intro hfilled
    rw [h.steady.loadBlock_of_lists hopen ((lists_iff hopen).mpr hfilled)] at hmiss
    cases hmiss
  obtain ⟨hsteady, hextends, hstored⟩ := h.steady.saveBlock hopen hinside hfree hfull
  refine ⟨⟨hsteady, ?_⟩, hextends, fun hstorable => ?_⟩
  · have hsize := (h.steady.store_eq store hopen).2
    by_cases hstorable : Storable size index
    · exact ⟨_, by rw [saveBlock_of_storable hopen hsize hfull hstorable]⟩
    · exact ⟨store, by rw [saveBlock_of_not_storable hopen hsize hfull hstorable, hopen]⟩
  · obtain ⟨hlists, hblock⟩ := hstored hstorable
    exact ⟨hsteady, hlists, hblock⟩

/-- The users of one path and one size. -/
def OneSize (entry : CacheEntry) (size : Nat) (path : String) (total : Nat) : Prop :=
  path = entry.path ∧ total = size

/-- Whatever blocks are saved, an entry that is used for one size stays steady. -/
theorem Steady.stable (entry : CacheEntry) (hsize : size < UInt64.size) :
    Stable (Steady entry.path size) entry.directory (OneSize entry size) fun _ _ _ _ => True where
  openStore := by
    rintro ledger path total h ⟨rfl, rfl⟩
    exact (h.openStore hsize).2.1
  loadBlock := by
    intro ledger index h
    rw [h.loadBlock]
    exact h
  saveBlock := by
    intro ledger store index block h hopen hinside hfree hfull _
    rw [grid_eq, (h.store_eq store hopen).2] at hinside hfull
    exact (h.saveBlock hopen hinside hfree hfull).1
  saveSidecar h := h.saveSidecar.1
  release h := h.release.1

/-- **A stored block is there for good.** -/
theorem Retains.stable (entry : CacheEntry) (hsize : size < UInt64.size) (index : Nat)
    (data : Bytes) :
    Stable (Retains entry.path size index data) entry.directory (OneSize entry size)
      fun _ _ _ _ => True where
  openStore := by
    rintro ledger path total h ⟨rfl, rfl⟩
    exact h.extends (h.steady.openStore hsize).2
  loadBlock := by
    intro ledger other h
    rw [h.steady.loadBlock]
    exact h
  saveBlock := by
    intro ledger store other block h hopen hinside hfree hfull _
    rw [grid_eq, (h.steady.store_eq store hopen).2] at hinside hfull
    obtain ⟨hsteady, hextends, -⟩ := h.steady.saveBlock hopen hinside hfree hfull
    exact h.extends ⟨hsteady, hextends⟩
  saveSidecar h := h.extends h.steady.saveSidecar
  release h := h.extends h.steady.release

end Ledger

end PspBoot
