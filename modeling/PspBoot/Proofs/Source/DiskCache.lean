import PspBoot.Proofs.BlockStore.Lease
import PspBoot.Proofs.Source.Call
import PspBoot.Source.DiskCache

/-!
# Disk caches show what they cache

A disk cache in front of a source that shows a content shows the same content, whatever its entry
has been used for before, as long as the entry is sound.  The source must leave the storage alone;
`ShowsAside` says so.  Without a store the disk cache is the source itself.
-/

namespace PspBoot

namespace DiskCache

variable {σ η α : Type}

/-- The part of a state that belongs to a source and the host. -/
def aside : Focus (σ × World η) (σ × η) where
  get s := (s.1, s.2.host)
  put s r := (r.1, { s.2 with host := r.2 })

instance : (aside : Focus (σ × World η) (σ × η)).Lawful where

/-- A property of what a source and the host have, and one of the storage beside it. -/
def Beside (V : σ × η → Prop) (P : Storage → Prop) (s : σ × World η) : Prop :=
  V (aside.get s) ∧ P s.2.storage

/-- A source that shows a content and leaves the storage alone. -/
def ShowsAside (inner : Source (σ × World η)) (content : Bytes) (reach : Nat)
    (V E : σ × η → Prop) : Prop :=
  ∀ kept, inner.Shows content reach (Beside V (· = kept)) (fun s => E (aside.get s))

/-- What is asked of a source if only no byte is to be wrong: it tells the size of the content or
none, its reads are beginnings of what was asked for, and it leaves the storage alone. -/
structure Faithful (inner : Source (σ × World η)) (content : Bytes) (V : σ × η → Prop) : Prop where
  isPresent : ∀ kept, Ensures (Beside V (· = kept)) (fun _ => True) inner.isPresent
    fun _ _ => True
  isDirectory : ∀ kept, Ensures (Beside V (· = kept)) (fun _ => True) inner.isDirectory
    fun _ _ => True
  size : ∀ kept, Ensures (Beside V (· = kept)) (fun _ => True) inner.size
    fun n _ => n = content.length ∨ n = 0
  readAt : ∀ kept offset len, Ensures (Beside V (· = kept)) (fun _ => True)
    (inner.readAt offset len) fun data _ => data <+: Bytes.slice content offset len

/-- What is asked of a source if its blocks are to be kept: it tells a size or none, the blocks that
it delivers in full are good, and it leaves the storage alone. -/
structure Cacheable (inner : Source (σ × World η)) (total : Nat) (good : Nat → Bytes → Prop)
    (V : σ × η → Prop) : Prop where
  isPresent : ∀ kept, Ensures (Beside V (· = kept)) (fun _ => True) inner.isPresent
    fun _ _ => True
  isDirectory : ∀ kept, Ensures (Beside V (· = kept)) (fun _ => True) inner.isDirectory
    fun _ _ => True
  size : ∀ kept, Ensures (Beside V (· = kept)) (fun _ => True) inner.size
    fun n _ => n = total ∨ n = 0
  readAt : ∀ kept offset len, Ensures (Beside V (· = kept)) (fun _ => True)
    (inner.readAt offset len) fun data _ =>
      ∀ index, offset = (BlockStore.gridFor total).start index →
        len = (BlockStore.gridFor total).width index → data.length = len → good index data

/-- What is asked of a source if a store is to be opened for it in any case: it is there, is no
directory, always tells the same size, reads no more than it is asked for, and leaves the storage
alone.  Reads may fail, and may find other bytes every time. -/
structure Sized (inner : Source (σ × World η)) (total : Nat) (V : σ × η → Prop) : Prop where
  isPresent : ∀ kept, Ensures (Beside V (· = kept)) (fun _ => True) inner.isPresent
    fun yes _ => yes = true
  isDirectory : ∀ kept, Ensures (Beside V (· = kept)) (fun _ => True) inner.isDirectory
    fun yes _ => yes = false
  size : ∀ kept, Ensures (Beside V (· = kept)) (fun _ => True) inner.size fun n _ => n = total
  readAt : ∀ kept offset len, Ensures (Beside V (· = kept)) (fun _ => True)
    (inner.readAt offset len) fun _ _ => True
  length_le : ∀ offset len s, (inner.readAt offset len s).1.length ≤ len

variable {inner : Source (σ × World η)} {content : Bytes} {reach : Nat} {V E : σ × η → Prop}
  {P : Storage → Prop}

/-- Whatever blocks it delivers may be kept. -/
theorem Sized.cacheable {total : Nat} (h : Sized inner total V) :
    Cacheable inner total (fun _ _ => True) V where
  isPresent kept := (h.isPresent kept).imp fun _ _ _ _ => trivial
  isDirectory kept := (h.isDirectory kept).imp fun _ _ _ _ => trivial
  size kept := (h.size kept).imp fun _ _ _ hsize => .inl hsize
  readAt kept offset len := (h.readAt kept offset len).imp fun _ _ _ _ _ _ _ _ => trivial

/-- What a faithful source delivers in full are the blocks of its content. -/
theorem Faithful.cacheable (h : Faithful inner content V) (good : Nat → Bytes → Prop)
    (hgood : ∀ index, good index (BlockStore.blockOf content index)) :
    Cacheable inner content.length good V where
  isPresent := h.isPresent
  isDirectory := h.isDirectory
  size := h.size
  readAt kept offset len := by
    apply (h.readAt kept offset len).imp
    rintro data s - hdata index rfl rfl hfull
    obtain rfl : data = BlockStore.blockOf content index :=
      hdata.eq_of_length_le (Nat.le_of_eq ((BlockStore.length_blockOf content index).trans
        hfull.symm))
    exact hgood index

/-- A source that shows a content is faithful to it. -/
theorem ShowsAside.faithful (h : ShowsAside inner content reach V E) :
    Faithful inner content V where
  isPresent kept s hs := ⟨((h kept).isPresent s hs).valid, id, trivial⟩
  isDirectory kept s hs := ⟨((h kept).isDirectory s hs).valid, id, trivial⟩
  size kept s hs :=
    have hsize := (h kept).size s hs
    ⟨hsize.valid, id, hsize.post.imp_right And.left⟩
  readAt kept offset len s hs :=
    have hread := (h kept).readAt offset len s hs
    ⟨hread.valid, id, hread.post.isPrefix⟩

/-- An action that leaves the storage alone keeps every property of it. -/
theorem ensures_aside {action : StateM (σ × World η) α} {Q : α → σ × World η → Prop}
    (h : ∀ kept, Ensures (Beside V (· = kept)) (fun s => E (aside.get s)) action Q) :
    Ensures (Beside V P) (fun s => E (aside.get s)) action Q := by
  intro s hs
  have hrun := h s.2.storage s ⟨hs.1, rfl⟩
  refine ⟨⟨hrun.valid.1, ?_⟩, hrun.excused, hrun.post⟩
  rw [hrun.valid.2]
  exact hs.2

/-- To look whether a store is open changes nothing. -/
@[simp] theorem run_store? (key : Option FilePath.Key) (s : σ × World η) :
    store? key s = (key.bind s.2.storage.store?, s) := rfl

/-- The size of a source with a store is that of the store. -/
theorem run_size (inner : Source (σ × World η)) {key : FilePath.Key} {s : σ × World η}
    {store : BlockStore} (hstore : s.2.storage.store? key = some store) :
    (inner.diskCached (some key)).size s = (store.size, s) := by
  simp [Source.diskCached, size, hstore]

/-! ### Reads with a store -/

/-- A block of which nothing fails is fetched as usual. -/
theorem fetchAs_usual (key : FilePath.Key) (inner : Source (σ × World η)) (grid : BlockGrid)
    (index : Nat) : fetchAs {} key inner grid index = fetch key inner grid index := by
  unfold fetchAs fetch
  simp only [Storage.loadBlockAs_usual, Storage.saveBlockAs_whole]

theorem readAtAs_usual (key : Option FilePath.Key) (inner : Source (σ × World η)) :
    readAtAs (fun _ => {}) key inner = readAt key inner := by
  funext offset len
  unfold readAtAs readAt
  simp only [fetchAs_usual]

theorem diskCachedAs_usual (key : Option FilePath.Key) (inner : Source (σ × World η)) :
    inner.diskCachedAs (fun _ => {}) key = inner.diskCached key := by
  unfold Source.diskCachedAs
  rw [readAtAs_usual]
  rfl

/-- What is delivered as a block was either found in the store or read from the source; what was
read is stored if it is complete, and then the store did not list the block.  The source is only
read if there is a state of the storage in which the block is not found. -/
theorem ensures_fetchAs_of {fate : Storage.BlockFate} {key : FilePath.Key} {grid : BlockGrid}
    {index : Nat} {found : Bytes → Prop} {read : Bytes → σ × η → Prop}
    (hload : ∀ kept, P kept → P (kept.loadBlockAs fate.unreadable key index).2 ∧
      ∀ data, (kept.loadBlockAs fate.unreadable key index).1 = some data → found data)
    (hread : (∃ kept, P kept ∧ (kept.loadBlockAs fate.unreadable key index).1 = none) → ∀ kept,
      Ensures (Beside V (· = kept)) (fun s => E (aside.get s))
        (inner.readAt (grid.start index) (grid.width index)) fun data s => read data (aside.get s))
    (hsave : ∀ kept data r, P kept →
      (∀ store, kept.store? key = some store → index ∉ store.filled) →
        data.length = grid.width index → read data r →
          P (kept.saveBlockAs fate.write key index data)) :
    Ensures (Beside V P) (fun s => E (aside.get s)) (fetchAs fate key inner grid index)
      fun data s => found data ∨ read data (aside.get s) := by
  intro s hs
  obtain ⟨hkept, hfound⟩ := hload s.2.storage hs.2
  simp only [fetchAs, run_bind, Focus.lift_run, get_storage, put_storage]
  cases hloaded : (s.2.storage.loadBlockAs fate.unreadable key index).1 with
  | some data => exact ⟨⟨hs.1, hkept⟩, id, .inl (hfound data hloaded)⟩
  | none =>
    let free (kept : Storage) : Prop :=
      P kept ∧ ∀ store, kept.store? key = some store → index ∉ store.filled
    have hfree : free (s.2.storage.loadBlockAs fate.unreadable key index).2 :=
      ⟨hkept, fun store hopen => Storage.not_mem_filled_of_loadBlockAs hloaded hopen⟩
    let t : σ × World η :=
      (s.1, { s.2 with storage := (s.2.storage.loadBlockAs fate.unreadable key index).2 })
    have hdata : Outcome (Beside V free) (fun s => E (aside.get s))
        (fun data u => read data (aside.get u)) t _ :=
      ensures_aside (hread ⟨_, hs.2, hloaded⟩) t ⟨hs.1, hfree⟩
    simp only [run_bind, run_ite, run_pure, run_modify, Focus.lift_run, get_storage, put_storage]
    split
    · next hcomplete =>
      have hsaved := hsave _ _ _ hdata.valid.2.1 hdata.valid.2.2 hcomplete hdata.post
      exact ⟨⟨hdata.valid.1, hsaved⟩, hdata.excused, .inr hdata.post⟩
    · exact ⟨⟨hdata.valid.1, hdata.valid.2.1⟩, hdata.excused, .inr hdata.post⟩

/-- The same where nothing fails. -/
theorem ensures_fetch_of {key : FilePath.Key} {grid : BlockGrid} {index : Nat}
    {found : Bytes → Prop} {read : Bytes → σ × η → Prop}
    (hload : ∀ kept, P kept → P (kept.loadBlock key index).2 ∧
      ∀ data, (kept.loadBlock key index).1 = some data → found data)
    (hread : (∃ kept, P kept ∧ (kept.loadBlock key index).1 = none) → ∀ kept,
      Ensures (Beside V (· = kept)) (fun s => E (aside.get s))
        (inner.readAt (grid.start index) (grid.width index)) fun data s => read data (aside.get s))
    (hsave : ∀ kept data r, P kept →
      (∀ store, kept.store? key = some store → index ∉ store.filled) →
        data.length = grid.width index → read data r → P (kept.saveBlock key index data)) :
    Ensures (Beside V P) (fun s => E (aside.get s)) (fetch key inner grid index)
      fun data s => found data ∨ read data (aside.get s) := by
  rw [← fetchAs_usual]
  refine ensures_fetchAs_of hload hread fun kept data r hkept hfree hcomplete hdata => ?_
  rw [Storage.saveBlockAs_whole]
  exact hsave kept data r hkept hfree hcomplete hdata

/-- What a disk cache asks of its store: it is open for the size of the content, what it has is
right, and it takes what is right, whatever becomes of the blocks. -/
structure ServesAs (fates : Nat → Storage.BlockFate) (P : Storage → Prop) (key : FilePath.Key)
    (content : Bytes) : Prop where
  exists_store : ∀ {kept}, P kept → ∃ store, kept.store? key = some store ∧
    store.size = content.length
  loadBlock : ∀ {kept} index, P kept →
    P (kept.loadBlockAs (fates index).unreadable key index).2 ∧
      ∀ data, (kept.loadBlockAs (fates index).unreadable key index).1 = some data →
        data = BlockStore.blockOf content index
  saveBlock : ∀ {kept index}, P kept → (BlockStore.gridOf content).start index < content.length →
    (∀ store, kept.store? key = some store → index ∉ store.filled) →
      P (kept.saveBlockAs (fates index).write key index (BlockStore.blockOf content index))

/-- The same where nothing fails. -/
structure Serves (P : Storage → Prop) (key : FilePath.Key) (content : Bytes) : Prop where
  exists_store : ∀ {kept}, P kept → ∃ store, kept.store? key = some store ∧
    store.size = content.length
  loadBlock : ∀ {kept} index, P kept → P (kept.loadBlock key index).2 ∧
    ∀ data, (kept.loadBlock key index).1 = some data → data = BlockStore.blockOf content index
  saveBlock : ∀ {kept index}, P kept → (BlockStore.gridOf content).start index < content.length →
    (∀ store, kept.store? key = some store → index ∉ store.filled) →
      P (kept.saveBlock key index (BlockStore.blockOf content index))

theorem serves_iff {key : FilePath.Key} :
    Serves P key content ↔ ServesAs (fun _ => {}) P key content := by
  constructor
  · intro h
    refine ⟨h.exists_store, h.loadBlock, fun hkept hinside hfree => ?_⟩
    rw [Storage.saveBlockAs_whole]
    exact h.saveBlock hkept hinside hfree
  · intro h
    refine ⟨h.exists_store, h.loadBlock, fun hkept hinside hfree => ?_⟩
    rw [← Storage.saveBlockAs_whole]
    exact h.saveBlock hkept hinside hfree

/-- A store that serves a content does so whatever fails. -/
theorem servesAs_serving (fates : Nat → Storage.BlockFate) (entry : CacheEntry) (content : Bytes) :
    ServesAs fates (fun kept => kept.Serving entry content) entry.key content where
  exists_store := by
    rintro kept ⟨store, _, hstore, -, hlists⟩
    exact ⟨store, hstore, hlists.size_eq⟩
  loadBlock index h := h.loadBlockAs _ index
  saveBlock h _ _ := h.saveBlockAs _ _

/-- It stays in use if no block is left half written, or if there is no other content. -/
theorem servesAs_inUse {entry : CacheEntry} {known : Bytes → Prop} {users : Nat}
    {fates : Nat → Storage.BlockFate} (hapart : CacheEntry.Apart known) (hknown : known content)
    (hfates : (∀ index, (fates index).write.IsAtomic) ∨ CacheEntry.Single known) :
    ServesAs fates (fun kept => kept.InUse entry known content users) entry.key content where
  exists_store h := by
    obtain ⟨store, _, _, hstore, hsize, -⟩ := h.exists_store
    exact ⟨store, hstore, hsize⟩
  loadBlock index h :=
    ⟨h.loadBlockAs _ index, ((h.serving hapart hknown).loadBlockAs _ index).2⟩
  saveBlock h _ _ := h.saveBlockAs hapart hknown (hfates.imp_left fun hatomic => hatomic _) _

/-- A store that is in use for a content serves it. -/
theorem serves_inUse {entry : CacheEntry} {known : Bytes → Prop} {users : Nat}
    (hapart : CacheEntry.Apart known) (hknown : known content) :
    Serves (fun kept => kept.InUse entry known content users) entry.key content :=
  serves_iff.mpr (servesAs_inUse hapart hknown (.inl fun _ => trivial))

section

variable {key : FilePath.Key} {fates : Nat → Storage.BlockFate}

/-- A block from the store is the block of the content, and so is one that has just been read, if
it is complete. -/
theorem ensures_fetchAs
    (h : ∀ kept, ReadsFrom content reach (Beside V (· = kept)) (fun s => E (aside.get s))
      inner.readAt)
    (hserves : ServesAs fates P key content)
    (hreach : min BlockStore.blockSize content.length ≤ reach) {index : Nat}
    (hinside : (BlockStore.gridOf content).start index < content.length) :
    Ensures (Beside V P) (fun s => E (aside.get s))
      (fetchAs (fates index) key inner (BlockStore.gridOf content) index) fun data s =>
        Delivered BlockStore.blockSize (BlockStore.blockOf content index) data
          (E (aside.get s)) := by
  let grid := BlockStore.gridOf content
  have hwidth : grid.width index ≤ reach :=
    Nat.le_trans (Nat.le_min.mpr ⟨grid.width_le index, grid.width_le_total index⟩) hreach
  have hlength := BlockStore.length_blockOf content index
  let read (data : Bytes) (r : σ × η) : Prop :=
    Delivered reach (BlockStore.blockOf content index) data (E r)
  have hfetch : Ensures (Beside V P) (fun s => E (aside.get s))
      (fetchAs (fates index) key inner grid index)
      fun data s => data = BlockStore.blockOf content index ∨ read data (aside.get s) := by
    apply ensures_fetchAs_of (fun kept hkept => hserves.loadBlock index hkept)
      (fun _ kept => h kept _ _)
    intro kept data r hkept hfree hcomplete hread
    obtain rfl : data = BlockStore.blockOf content index :=
      hread.isPrefix.eq_of_length_le (Nat.le_of_eq (hlength.trans hcomplete.symm))
    exact hserves.saveBlock hkept hinside hfree
  apply hfetch.imp
  rintro data s - (rfl | hread)
  · exact .whole
  · exact .of_eq_or hread.isPrefix (hread.eq_or (Nat.le_trans (Nat.le_of_eq hlength) hwidth))

/-- Reads of a disk cache with a store deliver the content, whatever fails. -/
theorem readsFromAs
    (h : ∀ kept, ReadsFrom content reach (Beside V (· = kept)) (fun s => E (aside.get s))
      inner.readAt)
    (hserves : ServesAs fates P key content)
    (hreach : min BlockStore.blockSize content.length ≤ reach) :
    ReadsFrom content content.length (Beside V P) (fun s => E (aside.get s))
      (readAtAs fates (some key) inner) := by
  intro offset len s hs
  obtain ⟨store, hstore, hsize⟩ := hserves.exists_store hs.2
  have hgrid : store.grid = BlockStore.gridOf content := by
    rw [BlockStore.grid, hsize, BlockStore.gridOf]
  simp only [readAtAs, run_bind, run_store?, Option.bind_some, hstore, hsize, hgrid]
  split
  · next hnothing =>
    have hempty : Bytes.slice content offset len = [] := Bytes.slice_eq_nil.mpr (by omega)
    rw [hempty]
    exact .same hs .whole
  · next hsome =>
    have hblock : (BlockStore.gridOf content).blockSize ≠ 0 := by
      simp [BlockStore.gridOf, BlockStore.blockSize]
    have hoffset : offset < (BlockStore.gridOf content).total := by
      simp only [BlockStore.gridOf]
      omega
    apply BlockGrid.ensures_read _ content hblock rfl _ hoffset (by omega) s hs
    intro index hinside
    exact ensures_fetchAs h hserves hreach hinside

theorem readsFrom
    (h : ∀ kept, ReadsFrom content reach (Beside V (· = kept)) (fun s => E (aside.get s))
      inner.readAt)
    (hserves : Serves P key content) (hreach : min BlockStore.blockSize content.length ≤ reach) :
    ReadsFrom content content.length (Beside V P) (fun s => E (aside.get s))
      (readAt (some key) inner) := by
  rw [← readAtAs_usual]
  exact readsFromAs h (serves_iff.mp hserves) hreach

/-- **A disk cache with a store shows the content of the source behind it**, provided that source
reaches as far as a block is long. -/
theorem shows (h : ShowsAside inner content reach V E) (hserves : Serves P key content)
    (hreach : min BlockStore.blockSize content.length ≤ reach) :
    (inner.diskCached (some key)).Shows content content.length (Beside V P)
      (fun s => E (aside.get s)) where
  isPresent := ensures_aside fun kept => (h kept).isPresent
  isDirectory := ensures_aside fun kept => (h kept).isDirectory
  size s hs := by
    obtain ⟨store, hstore, hsize⟩ := hserves.exists_store hs.2
    rw [run_size inner hstore]
    exact .same hs (.inl hsize)
  readAt := readsFrom (fun kept => (h kept).readAt) hserves hreach
  failureCount := ensures_aside fun kept => (h kept).failureCount
  hasEntry name := ensures_aside fun kept => (h kept).hasEntry name

end

/-- Without a store the disk cache is the source. -/
theorem shows_none (h : ShowsAside inner content reach V E) :
    (inner.diskCached none).Shows content reach (Beside V P) (fun s => E (aside.get s)) where
  isPresent := ensures_aside fun kept => (h kept).isPresent
  isDirectory := ensures_aside fun kept => (h kept).isDirectory
  size := ensures_aside fun kept => (h kept).size
  readAt offset len := ensures_aside fun kept => (h kept).readAt offset len
  failureCount := ensures_aside fun kept => (h kept).failureCount
  hasEntry name := ensures_aside fun kept => (h kept).hasEntry name

/-! ### Single blocks -/

section

variable {key : FilePath.Key} {s : σ × World η} {store : BlockStore}

/-- A block that is found is not read again. -/
theorem run_fetch_of_some {grid : BlockGrid} {index : Nat} {data : Bytes}
    (hload : (s.2.storage.loadBlock key index).1 = some data) :
    fetch key inner grid index s =
      (data, storage.put s (s.2.storage.loadBlock key index).2) := by
  simp only [fetch, run_bind, Focus.lift_run, get_storage, hload, run_pure]

/-- A block that is not found is read, and stored if it is complete. -/
theorem run_fetch_of_none {grid : BlockGrid} {index : Nat} {data : Bytes} {t : σ × World η}
    (hload : (s.2.storage.loadBlock key index).1 = none)
    (hread : inner.readAt (grid.start index) (grid.width index)
      (storage.put s (s.2.storage.loadBlock key index).2) = (data, t)) :
    fetch key inner grid index s =
      (data, if data.length = grid.width index then
          storage.put t (t.2.storage.saveBlock key index data)
        else t) := by
  rw [put_storage] at hread
  simp only [fetch, run_bind, Focus.lift_run, get_storage, put_storage, hload, hread, run_ite,
    run_pure, run_modify]
  split
  · rfl
  · rfl

/-- A source that does not fail delivers it, so it is stored. -/
theorem fetch_of_none (h : ShowsAside inner content content.length V fun _ => False)
    (hV : V (aside.get s)) {index : Nat} (hload : (s.2.storage.loadBlock key index).1 = none) :
    let fetched := (fetch key inner (BlockStore.gridFor content.length) index s).2
    V (aside.get fetched) ∧
      fetched.2.storage = (s.2.storage.loadBlock key index).2.saveBlock key index
        (BlockStore.blockOf content index) := by
  let grid := BlockStore.gridOf content
  let missed : σ × World η := storage.put s (s.2.storage.loadBlock key index).2
  have hread := (h missed.2.storage).readAt (grid.start index) (grid.width index) missed ⟨hV, rfl⟩
  have hwidth : (BlockStore.blockOf content index).length = grid.width index :=
    BlockStore.length_blockOf content index
  have hlength : (BlockStore.blockOf content index).length ≤ content.length :=
    Nat.le_trans (Nat.le_of_eq hwidth) (grid.width_le_total index)
  obtain ⟨data, t, hrun⟩ : ∃ data t,
      inner.readAt (grid.start index) (grid.width index) missed = (data, t) := ⟨_, _, rfl⟩
  rw [hrun] at hread
  obtain ⟨hvalid, hstorage⟩ := hread.valid
  obtain rfl : data = BlockStore.blockOf content index :=
    (hread.post.eq_or hlength).resolve_right id
  have hfetch := run_fetch_of_none (s := s) hload hrun
  rw [if_pos hwidth] at hfetch
  intro fetched
  have hfetched : fetched = _ := congrArg Prod.snd hfetch
  rw [hfetched]
  refine ⟨hvalid, ?_⟩
  change t.2.storage.saveBlock key index _ = _
  rw [hstorage]
  rfl

/-- A read of one byte is a read of its block. -/
theorem run_readAt_one (inner : Source (σ × World η))
    (hstore : s.2.storage.store? key = some store) {grid : BlockGrid} (hgrid : store.grid = grid)
    {index offset : Nat} (hcovers : grid.Covers index offset) :
    readAt (some key) inner offset 1 s =
      (grid.part index offset (offset + 1) (fetch key inner grid index s).1,
        (fetch key inner grid index s).2) := by
  subst hgrid
  have hinside : offset < store.size := hcovers.lt_total
  have hstop : min (offset + 1) store.size = offset + 1 := Nat.min_eq_left hinside
  have hsome : ¬(store.size ≤ offset ∨ 1 = 0) := by omega
  simp only [readAt, run_bind, run_store?, Option.bind_some, hstore]
  rw [if_neg hsome, hstop, Nat.add_sub_cancel, Nat.sub_self, hcovers.indexOf_eq,
    BlockGrid.collect_one]

end

/-- Reads in the first block reach no further than the bytes of it that a single read of the source
delivers, as long as the store does not have the block and these bytes are not all of it. -/
theorem length_readAt_le {key : FilePath.Key} {s : σ × World η} {store : BlockStore}
    (hstore : s.2.storage.store? key = some store) (hfree : 0 ∉ store.filled) {bound : Nat}
    (hbound : bound < store.grid.width 0)
    (hread : ∀ offset len t, (inner.readAt offset len t).1.length ≤ bound) {offset : Nat}
    (hoffset : offset ≤ bound) (len : Nat) :
    (readAt (some key) inner offset len s).1.length ≤ bound - offset := by
  have hload : s.2.storage.loadBlock key 0 = (none, s.2.storage) := by
    simp [Storage.loadBlock, hstore, hfree]
  have hfetch : (fetch key inner store.grid 0 s).1 =
      (inner.readAt (store.grid.start 0) (store.grid.width 0) s).1 := by
    have hdata := hread (store.grid.start 0) (store.grid.width 0) s
    have hshort : (inner.readAt (store.grid.start 0) (store.grid.width 0) s).1.length ≠
        store.grid.width 0 := by omega
    simp [fetch, hload, hshort]
  have hfirst : store.grid.indexOf offset = 0 := by
    have hwidth := store.grid.width_le 0
    exact Nat.div_eq_of_lt (by omega)
  simp only [readAt, run_bind, run_store?, Option.bind_some, hstore]
  split
  · apply Nat.zero_le
  · have hdata := hread (store.grid.start 0) (store.grid.width 0) s
    rw [hfirst, BlockGrid.collect_of_short (by rw [hfetch]; omega), hfetch]
    have hpart := store.grid.length_part_le 0 offset (min (offset + len) store.size)
      (inner.readAt (store.grid.start 0) (store.grid.width 0) s).1
    rw [BlockGrid.start, Nat.zero_mul] at hpart hdata ⊢
    omega

/-! ### Calls -/

/-- Without a store every call leaves the storage alone. -/
theorem Cacheable.ask_none {size : Nat} {good : Nat → Bytes → Prop}
    (h : Cacheable inner size good V) (kept : Storage) (call : Call) :
    Ensures (Beside V (· = kept)) (fun _ => True) ((inner.diskCached none).ask call)
      fun _ _ => True := by
  intro s hs
  cases call with
  | isPresent => exact (h.isPresent kept s hs).bind fun _ _ ht _ => .same ht trivial
  | isDirectory => exact (h.isDirectory kept s hs).bind fun _ _ ht _ => .same ht trivial
  | size => exact Outcome.bind (h.size kept s hs) fun _ _ ht _ => .same ht trivial
  | readAt offset len =>
    exact Outcome.bind (h.readAt kept offset len s hs) fun _ _ ht _ => .same ht trivial

section

variable {kept : Storage → Prop} {directory path : String} {known : String → Nat → Prop}
  {good : String → Nat → Nat → Bytes → Prop} {total : Nat} {leases : FilePath.Key → Option Lease}
  {lease : Lease}

/-- With a store that suits the source, reads keep up the storage and change no lease. -/
theorem Cacheable.readAt_some (h : Cacheable inner total (good path total) V)
    (hupkeep : Storage.Upkeep kept directory known good) (hknown : known path total)
    (hlease : leases (CacheEntry.key { directory, path }) = some lease)
    (hsuits : lease.Suits good path total) (offset len : Nat) :
    Ensures (Beside V fun st => kept st ∧ st.lease? = leases) (fun _ => True)
      (DiskCache.readAt (some (CacheEntry.key { directory, path })) inner offset len)
      fun _ _ => True := by
  intro s hs
  obtain ⟨store, hstore, hsame⟩ := Storage.exists_store_of_lease? (hs.2.2 ▸ hlease)
  have hsize : store.size = total := (congrArg Lease.size hsame).trans hsuits.1
  simp only [DiskCache.readAt, run_bind, run_store?, Option.bind_some, hstore]
  split
  · exact .same hs trivial
  · next hsome =>
    apply BlockGrid.ensures_collect_of _ _ s hs
    intro k hk
    have hinside : store.grid.start (store.grid.indexOf offset + k) < store.size :=
      Nat.lt_of_lt_of_le (store.grid.start_lt_of_read (by omega) hk) (Nat.min_le_right _ _)
    generalize store.grid.indexOf offset + k = index at hinside
    let read (data : Bytes) (r : σ × η) : Prop :=
      data.length = store.grid.width index → good path total index data
    have hfetch : Ensures (Beside V fun st => kept st ∧ st.lease? = leases) (fun _ => True)
        (fetch (CacheEntry.key { directory, path }) inner store.grid index)
        fun data s => True ∨ read data (aside.get s) := by
      refine ensures_fetch_of (E := fun _ => True) ?_ ?_ ?_
      · intro st hst
        refine ⟨⟨hupkeep.loadBlock hst.1 hknown index, ?_⟩, fun _ _ => trivial⟩
        rw [Storage.lease?_loadBlock]
        exact hst.2
      · intro _ st
        apply (h.readAt st _ _).imp
        intro data t _ hgood hfull
        exact hgood index (by rw [BlockStore.grid_eq, hsize]) (by rw [BlockStore.grid_eq, hsize])
          hfull
      · intro st data r hst hfree hfull hgood
        obtain ⟨held, hheld, hlent⟩ := Storage.exists_store_of_lease? (hst.2 ▸ hlease)
        have hpath : held.path = lease.path := congrArg Lease.path hlent
        have hheldSize : held.size = total := (congrArg Lease.size hlent).trans hsuits.1
        have hgrid : held.grid = store.grid := by
          rw [BlockStore.grid_eq, BlockStore.grid_eq, hheldSize, hsize]
        constructor
        · apply hupkeep.saveBlock hst.1 hknown hheld _ (hfree held hheld) (hgrid ▸ hfull)
          · rw [hpath, hheldSize]
            exact hsuits.2 index data (hgood hfull)
          · rw [hgrid, hheldSize, ← hsize]
            exact hinside
        · rw [Storage.lease?_saveBlock]
          exact hst.2
    exact hfetch.imp fun _ _ _ _ => trivial

/-- So do all calls. -/
theorem Cacheable.ask_some (h : Cacheable inner total (good path total) V)
    (hupkeep : Storage.Upkeep kept directory known good) (hknown : known path total)
    (hlease : leases (CacheEntry.key { directory, path }) = some lease)
    (hsuits : lease.Suits good path total) (call : Call) :
    Ensures (Beside V fun st => kept st ∧ st.lease? = leases) (fun _ => True)
      ((inner.diskCached (some (CacheEntry.key { directory, path }))).ask call)
      fun _ _ => True := by
  intro s hs
  cases call with
  | isPresent =>
    have hrun := ensures_aside (P := fun st => kept st ∧ st.lease? = leases) (E := fun _ => True)
      h.isPresent
    exact Outcome.bind (hrun s hs) fun _ _ ht _ => .same ht trivial
  | isDirectory =>
    have hrun := ensures_aside (P := fun st => kept st ∧ st.lease? = leases) (E := fun _ => True)
      h.isDirectory
    exact Outcome.bind (hrun s hs) fun _ _ ht _ => .same ht trivial
  | size =>
    obtain ⟨store, hstore, -⟩ := Storage.exists_store_of_lease? (hs.2.2 ▸ hlease)
    simp only [Source.ask, run_bind, run_size inner hstore]
    exact .same hs trivial
  | readAt offset len =>
    have hrun := h.readAt_some hupkeep hknown hlease hsuits offset len
    exact Outcome.bind (hrun s hs) fun _ _ ht _ => .same ht trivial

end

/-- With a store in use every call leaves it in use, if no block is left half written or there is no
other content. -/
theorem Faithful.ask_some {entry : CacheEntry} {known : Bytes → Prop} {users : Nat}
    {fates : Nat → Storage.BlockFate} (h : Faithful inner content V)
    (hapart : CacheEntry.Apart known) (hknown : known content)
    (hfates : (∀ index, (fates index).write.IsAtomic) ∨ CacheEntry.Single known) (call : Call) :
    Ensures (Beside V fun st => st.InUse entry known content users) (fun _ => True)
      ((inner.diskCachedAs fates (some entry.key)).ask call) fun _ _ => True := by
  intro s hs
  cases call with
  | isPresent =>
    have hrun : Ensures (Beside V fun st => st.InUse entry known content users) (fun _ => True)
        inner.isPresent fun _ _ => True := ensures_aside (E := fun _ => True) h.isPresent
    exact Outcome.bind (hrun s hs) fun _ _ ht _ => .same ht trivial
  | isDirectory =>
    have hrun : Ensures (Beside V fun st => st.InUse entry known content users) (fun _ => True)
        inner.isDirectory fun _ _ => True := ensures_aside (E := fun _ => True) h.isDirectory
    exact Outcome.bind (hrun s hs) fun _ _ ht _ => .same ht trivial
  | size =>
    obtain ⟨store, _, _, hstore, -⟩ := hs.2.exists_store
    have hsize : (inner.diskCachedAs fates (some entry.key)).size s = (store.size, s) :=
      run_size inner hstore
    simp only [Source.ask, run_bind, hsize]
    exact .same hs trivial
  | readAt offset len =>
    have hread (kept : Storage) : ReadsFrom content content.length (Beside V (· = kept))
        (fun _ => True) inner.readAt := by
      intro offset len t ht
      have hdata := h.readAt kept offset len t ht
      exact ⟨hdata.valid, id, hdata.post, .inr trivial⟩
    have hrun : ReadsFrom content content.length
        (Beside V fun st => st.InUse entry known content users) (fun _ => True)
        (DiskCache.readAtAs fates (some entry.key) inner) :=
      readsFromAs (E := fun _ => True) hread (servesAs_inUse hapart hknown hfates)
        (Nat.min_le_right _ _)
    exact Outcome.bind (hrun offset len s hs) fun _ _ ht _ => .same ht trivial

/-! ### Opening -/

variable {entry : CacheEntry} {known : Bytes → Prop}

/-- A store is opened as usual if nothing fails. -/
theorem openStoreAs_usual (directory : String) (inner : Source (σ × World η)) :
    openStoreAs .usual directory inner = openStore directory inner := by
  unfold openStoreAs openStore
  simp only [Storage.openStoreAs_usual]

/-- Either a source is not one to have a store, or the storage opens one for it if it can. -/
theorem Cacheable.openStoreAs {size : Nat} {good : Nat → Bytes → Prop} {s : σ × World η}
    (h : Cacheable inner size good V) (hV : V (aside.get s)) (fate : Storage.OpenFate)
    (directory : String) :
    let result := openStoreAs fate directory inner s
    V (aside.get result.2) ∧
      ((result.1, result.2.2.storage) = (none, s.2.storage) ∨
        (result.1, result.2.2.storage) =
          s.2.storage.openStoreAs fate { directory, path := inner.locator.path } size) := by
  have hpresent := h.isPresent s.2.storage s ⟨hV, rfl⟩
  simp only [DiskCache.openStoreAs, run_bind]
  cases (inner.isPresent s).1 with
  | false => exact ⟨hpresent.valid.1, .inl (congrArg (Prod.mk none) hpresent.valid.2)⟩
  | true =>
    have hdirectory := h.isDirectory s.2.storage _ hpresent.valid
    simp only [Bool.not_true, Bool.false_eq_true, if_false, run_bind]
    cases (inner.isDirectory (inner.isPresent s).2).1 with
    | true => exact ⟨hdirectory.valid.1, .inl (congrArg (Prod.mk none) hdirectory.valid.2)⟩
    | false =>
      have hsize := h.size s.2.storage _ hdirectory.valid
      simp only [Bool.false_eq_true, if_false, run_bind]
      by_cases hzero : (inner.size (inner.isDirectory (inner.isPresent s).2).2).1 = 0
      · rw [if_pos hzero]
        exact ⟨hsize.valid.1, .inl (congrArg (Prod.mk none) hsize.valid.2)⟩
      · rw [if_neg hzero, hsize.post.resolve_right hzero]
        refine ⟨hsize.valid.1, .inr ?_⟩
        rw [← hsize.valid.2]
        rfl

theorem Cacheable.openStore {size : Nat} {good : Nat → Bytes → Prop} {s : σ × World η}
    (h : Cacheable inner size good V) (hV : V (aside.get s)) (directory : String) :
    let result := openStore directory inner s
    V (aside.get result.2) ∧
      ((result.1, result.2.2.storage) = (none, s.2.storage) ∨
        (result.1, result.2.2.storage) =
          s.2.storage.openStore { directory, path := inner.locator.path } size) := by
  rw [← DiskCache.openStoreAs_usual, ← Storage.openStoreAs_usual]
  exact h.openStoreAs hV .usual directory

/-- What opening a store for a source comes to, in a state of the storage. -/
def StoreOpened (entry : CacheEntry) (known : Bytes → Prop) (content : Bytes) (V : σ × η → Prop)
    (kept : Storage) (result : Option FilePath.Key × (σ × World η)) : Prop :=
  V (aside.get result.2) ∧
    Storage.Opened entry known content kept (result.1, result.2.2.storage)

/-- A store is opened for a source that shows a content, unless something is in the way. -/
theorem storeOpened_openStoreAs (entry : CacheEntry) (s : σ × World η)
    (h : Faithful inner content V) (hpath : inner.locator.path = entry.path)
    (hapart : CacheEntry.Apart known) (hknown : known content) (hV : V (aside.get s))
    (hsound : s.2.storage.Sound entry known) (fate : Storage.OpenFate) :
    StoreOpened entry known content V s.2.storage
      (openStoreAs fate entry.directory inner s) := by
  obtain ⟨hvalid, hresult⟩ :=
    (h.cacheable (fun _ _ => True) fun _ => trivial).openStoreAs hV fate entry.directory
  refine ⟨hvalid, ?_⟩
  rcases hresult with hrefused | hopened
  · rw [hrefused]
    exact ⟨hsound, .inl ⟨rfl, rfl⟩⟩
  · rw [hopened, hpath]
    exact Storage.opened_openStoreAs hsound hapart hknown fate

theorem storeOpened_openStore (entry : CacheEntry) (s : σ × World η)
    (h : Faithful inner content V) (hpath : inner.locator.path = entry.path)
    (hapart : CacheEntry.Apart known) (hknown : known content) (hV : V (aside.get s))
    (hsound : s.2.storage.Sound entry known) :
    StoreOpened entry known content V s.2.storage (openStore entry.directory inner s) := by
  rw [← openStoreAs_usual]
  exact storeOpened_openStoreAs entry s h hpath hapart hknown hV hsound .usual

/-- For a source that is not there, no store is opened. -/
theorem openStore_of_absent (directory : String) {s : σ × World η}
    (hno : (inner.isPresent s).1 = false) :
    openStore directory inner s = (none, (inner.isPresent s).2) := by
  simp [openStore, hno]

/-- For a source that is there, a store is opened if the storage has one. -/
theorem openStore_of_present {total : Nat} (entry : CacheEntry) (s : σ × World η)
    (hpresent : ∀ kept, Ensures (Beside V (· = kept)) (fun s => E (aside.get s)) inner.isPresent
      fun yes _ => yes = true)
    (hdirectory : ∀ kept, Ensures (Beside V (· = kept)) (fun s => E (aside.get s))
      inner.isDirectory fun yes _ => yes = false)
    (hsize : ∀ kept, Ensures (Beside V (· = kept)) (fun s => E (aside.get s)) inner.size
      fun n _ => n = total)
    (hpath : inner.locator.path = entry.path) (hsome : total ≠ 0) (hV : V (aside.get s)) :
    ((openStore entry.directory inner s).1, (openStore entry.directory inner s).2.2.storage) =
      s.2.storage.openStore entry total := by
  have hyes := hpresent s.2.storage s ⟨hV, rfl⟩
  have hno := hdirectory s.2.storage _ hyes.valid
  have hlength := hsize s.2.storage _ hno.valid
  have hstorage := hlength.valid.2
  simp [openStore, hyes.post, hno.post, hlength.post, hsome, hpath, hstorage]

theorem Sized.openStore {total : Nat} (h : Sized inner total V) (entry : CacheEntry)
    (s : σ × World η) (hpath : inner.locator.path = entry.path) (hsome : total ≠ 0)
    (hV : V (aside.get s)) :
    ((openStore entry.directory inner s).1, (openStore entry.directory inner s).2.2.storage) =
      s.2.storage.openStore entry total :=
  openStore_of_present (E := fun _ => True) entry s h.isPresent h.isDirectory h.size hpath hsome hV

/-- So it is for a source that shows a content without excuse. -/
theorem openStore_of_shows (entry : CacheEntry) (s : σ × World η)
    (h : ShowsAside inner content reach V fun _ => False)
    (hpath : inner.locator.path = entry.path) (hsize : content.length ≠ 0) (hV : V (aside.get s)) :
    ((openStore entry.directory inner s).1, (openStore entry.directory inner s).2.2.storage) =
      s.2.storage.openStore entry content.length := by
  refine openStore_of_present (E := fun _ => False) entry s ?_ ?_ ?_ hpath hsize hV
  · exact fun kept => (h kept).isPresent.imp fun _ _ _ hyes => hyes.resolve_right id
  · exact fun kept => (h kept).isDirectory
  · exact fun kept => (h kept).size.imp fun _ _ _ hn => hn.resolve_right And.right

end DiskCache

end PspBoot
