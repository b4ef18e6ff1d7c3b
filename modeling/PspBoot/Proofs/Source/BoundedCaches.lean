import PspBoot.Proofs.Source.Bounded
import PspBoot.Proofs.Source.DiskCache
import PspBoot.Proofs.Source.MemoryCache

/-!
# Caches read within bounds

Both caches put an answer together from blocks.  A block may hold any bytes, from whatever source
they were stored, but it is never longer than the grid says.  So the parts that are cut out of the
blocks of a read are together no longer than the read, and every offset that is computed on the way
lies inside the source.

A cache asks for a buffer that can hold the whole answer (`DiskCache.room`, `MemoryCache.room`), and a
cache in memory counts the uses of its blocks (`MemoryCache.Spent`).  These are the two limits at which
a read stops.
-/

namespace PspBoot

variable {σ η : Type}

/-! ### Assembly -/

namespace BlockGrid

variable {V spent : σ → Prop} {grid : BlockGrid}

/-- The part of a block that is not too long lies between the marks and inside the block. -/
theorem length_part_le_room (grid : BlockGrid) (index offset stop : Nat) {block : Bytes}
    (h : block.length ≤ grid.blockSize) :
    (grid.part index offset stop block).length ≤
      min stop (grid.start (index + 1)) - max offset (grid.start index) := by
  rw [part, List.length_drop, List.length_take, start_succ]
  omega

/-- If some blocks begin before a mark, so do those behind the first of them. -/
theorem inside_succ {count index stop : Nat}
    (h : ∀ k < count + 1, grid.start (index + k) < stop) :
    ∀ k < count, grid.start (index + 1 + k) < stop := by
  intro k hk
  rw [Nat.add_assoc, Nat.add_comm 1 k]
  exact h (k + 1) (Nat.succ_lt_succ hk)

/-- **A read by blocks stays inside the source**, if its blocks can be fetched: the first one as things
are, and the ones behind it whatever comes before. -/
theorem followed_collect {fetch : Nat → Checked σ Bytes} {fetch' : Nat → StateM σ Bytes}
    {offset stop : Nat} (hsize : grid.blockSize ≠ 0) (htotal : grid.total < UInt64.size)
    (hstop : stop ≤ grid.total) (count : Nat) {index : Nat} {s : σ} (hs : V s)
    (hinside : ∀ k < count, grid.start (index + k) < stop)
    (hfirst : 0 < count →
      Followed V spent (fetch index) (fetch' index) (fun block => block.length ≤ grid.blockSize) s)
    (hlater : ∀ later, index < later → grid.start later < stop → ∀ t, V t →
      Followed V spent (fetch later) (fetch' later) (fun block => block.length ≤ grid.blockSize) t) :
    Followed V spent (grid.collectChecked fetch offset stop count index)
      (grid.collect fetch' offset stop count index)
      (fun data => data.length ≤ stop - max offset (grid.start index)) s := by
  -- The part of a block ends where the next block begins, so what is left for the blocks behind it
  -- is what the window has left there.
  induction count generalizing index s with
  | zero => exact .pure hs (Nat.zero_le _)
  | succ count ih =>
    have hstart : index * grid.blockSize < stop := hinside 0 (Nat.zero_lt_succ count)
    refine .bind (hfirst (Nat.zero_lt_succ count)) fun block t ht hblock => ?_
    have hpart := grid.length_part_le_room index offset stop hblock
    have hfront : max offset (index * grid.blockSize) - index * grid.blockSize =
        offset - grid.start index := by
      rw [start]
      omega
    refine .mul (by omega) (.sub (by omega) (.sub (by omega) ?_))
    rw [hfront]
    refine .ite (fun _ => .pure ht (Nat.zero_le _)) fun _ => .sub (by omega) ?_
    rw [start_succ] at hpart
    refine .ite (fun _ => .pure ht ?_) fun _ => ?_
    · exact Nat.le_trans hpart (by omega)
    have hindex : index ≤ index * grid.blockSize := Nat.le_mul_of_pos_right _ (by omega)
    have hinside' := inside_succ hinside
    have hnext (hcount : 0 < count) :=
      hlater (index + 1) (Nat.lt_succ_self index) (hinside' 0 hcount) t ht
    have hrest := ih ht hinside' hnext fun later hbehind => hlater later (Nat.lt_of_succ_lt hbehind)
    refine .add (by omega) (.bind hrest fun rest u hu hlength => .pure hu ?_)
    rw [start_succ] at hlength
    rw [List.length_append]
    refine Nat.le_trans (Nat.add_le_add hpart hlength) ?_
    omega

/-- From the block in which a read begins, the read delivers no more than what it asks for. -/
theorem followed_window {fetch : Nat → Checked σ Bytes} {fetch' : Nat → StateM σ Bytes}
    {offset stop : Nat} (hsize : grid.blockSize ≠ 0) (htotal : grid.total < UInt64.size)
    (hstop : stop ≤ grid.total) (hoffset : offset < stop) {s : σ} (hs : V s)
    (hfirst : Followed V spent (fetch (grid.indexOf offset)) (fetch' (grid.indexOf offset))
      (fun block => block.length ≤ grid.blockSize) s)
    (hlater : ∀ later, grid.indexOf offset < later → grid.start later < stop → ∀ t, V t →
      Followed V spent (fetch later) (fetch' later) (fun block => block.length ≤ grid.blockSize) t) :
    Followed V spent
      (grid.collectChecked fetch offset stop (grid.indexOf (stop - 1) - grid.indexOf offset + 1)
        (grid.indexOf offset))
      (grid.collect fetch' offset stop (grid.indexOf (stop - 1) - grid.indexOf offset + 1)
        (grid.indexOf offset))
      (fun data => data.length ≤ stop - offset) s := by
  have hinside (k : Nat) (hk : k < grid.indexOf (stop - 1) - grid.indexOf offset + 1) :=
    grid.start_lt_of_read hoffset hk
  refine (followed_collect hsize htotal hstop _ hs hinside (fun _ => hfirst) hlater).imp ?_
  intro data hdata
  have hstart := grid.start_indexOf_le offset
  omega

/-- If the first block cannot be fetched, the read stops there. -/
theorem stops_collect {fetch : Nat → Checked σ Bytes} {offset stop index : Nat} {s : σ}
    (h : ((fetch index).run s).1 = none) (count : Nat) :
    ((grid.collectChecked fetch offset stop (count + 1) index).run s).1 = none :=
  Checked.run_bind_of_none h

/-- A whole block contributes something to every window that touches it. -/
theorem part_ne_nil {index offset stop : Nat} {block : Bytes} (hsize : grid.blockSize ≠ 0)
    (hoffset : offset < stop) (hstop : stop ≤ grid.total) (hstart : grid.start index < stop)
    (hbegin : offset < grid.start (index + 1)) (hwhole : grid.width index ≤ block.length) :
    grid.part index offset stop block ≠ [] := by
  intro hnothing
  have hlength := congrArg List.length hnothing
  rw [part, List.length_drop, List.length_take, List.length_nil] at hlength
  rw [width] at hwhole
  rw [start_succ] at hbegin
  omega

/-- A measure has grown by at most one with a block, and not at all unless the block is whole. -/
structure Advances (grid : BlockGrid) (V : σ → Prop) (measure : σ → Nat) (index : Nat) (s : σ)
    (result : Bytes × σ) : Prop where
  valid : V result.2
  le_succ : measure result.2 ≤ measure s + 1
  le_of_short : result.1.length < grid.width index → measure result.2 ≤ measure s

/-- Such a measure grows by no more than the bytes that are delivered: a whole block contributes at
least one. -/
theorem measure_collect_le {fetch : Nat → StateM σ Bytes} (measure : σ → Nat) {offset stop : Nat}
    (hsize : grid.blockSize ≠ 0) (hoffset : offset < stop) (hstop : stop ≤ grid.total)
    (count : Nat) {index : Nat} {s : σ} (hbegin : offset < grid.start (index + 1))
    (hinside : ∀ k < count, grid.start (index + k) < stop)
    (hfirst : 0 < count → grid.Advances V measure index s (fetch index s))
    (hlater : ∀ later, index < later → grid.start later < stop → ∀ t, V t →
      grid.Advances V measure later t (fetch later t)) :
    measure (grid.collect fetch offset stop count index s).2 ≤
      measure s + (grid.collect fetch offset stop count index s).1.length := by
  induction count generalizing index s with
  | zero => exact Nat.le_refl _
  | succ count ih =>
    have hstart : grid.start index < stop := hinside 0 (Nat.zero_lt_succ count)
    obtain ⟨ht, hone, hshort⟩ := hfirst (Nat.zero_lt_succ count)
    rcases hrun : fetch index s with ⟨block, t⟩
    rw [hrun] at ht hone hshort
    dsimp only at ht hone hshort
    rw [collect, run_bind, hrun]
    dsimp only
    rw [run_ite]
    split
    · next hnothing =>
      have hmissing : block.length < grid.width index := Nat.not_le.mp fun hwhole =>
        part_ne_nil hsize hoffset hstop hstart hbegin hwhole hnothing
      exact Nat.le_trans (hshort hmissing) (Nat.le_add_right _ _)
    · next hsome =>
      have hpart : 1 ≤ (grid.part index offset stop block).length := List.length_pos_iff.mpr hsome
      rw [run_ite]
      split
      · exact Nat.le_trans hone (Nat.add_le_add_left hpart _)
      · have hbegin' := Nat.lt_of_lt_of_le hbegin (grid.start_mono (Nat.le_succ (index + 1)))
        have hinside' := inside_succ hinside
        have hnext (hcount : 0 < count) :=
          hlater (index + 1) (Nat.lt_succ_self index) (hinside' 0 hcount) t ht
        have hrest := ih hbegin' hinside' hnext fun later hbehind =>
          hlater later (Nat.lt_of_succ_lt hbehind)
        rw [run_bind, run_pure]
        dsimp only
        rw [List.length_append]
        omega

end BlockGrid

/-! ### Block stores -/

namespace Storage

/-- The sizes of the open stores are words. -/
def HoldsWords (storage : Storage) : Prop :=
  ∀ entry ∈ storage.stores, entry.2.size < UInt64.size

/-- To load a block leaves the storage as it is, or the block is no longer listed.  What is loaded
is no longer than a block may be. -/
theorem loadBlock_cases (storage : Storage) (key : FilePath.Key) (index : Nat) :
    (∃ found, storage.loadBlock key index = (found, storage) ∧
      ∀ data, found = some data → data.length ≤ BlockStore.blockSize) ∨
    ∃ store, storage.store? key = some store ∧
      storage.loadBlock key index =
        (none, storage.setStore key { store with filled := store.filled.erase index }) := by
  unfold Storage.loadBlock
  cases hopen : storage.store? key with
  | none => exact .inl ⟨none, rfl, nofun⟩
  | some store =>
    have hwidth := store.grid.width_le index
    dsimp only
    generalize store.grid.width index = width at hwidth ⊢
    by_cases hlisted : index ∈ store.filled
    · rw [if_pos hlisted]
      cases storage.files.readAt store.data (store.grid.start index) width with
      | error => exact .inr ⟨store, rfl, rfl⟩
      | ok data =>
        by_cases hlength : data.length = width
        · refine .inl ⟨some data, if_pos hlength, ?_⟩
          rintro _ ⟨⟩
          exact Nat.le_trans (Nat.le_of_eq hlength) hwidth
        · exact .inr ⟨store, rfl, if_neg hlength⟩
    · exact .inl ⟨none, if_neg hlisted, nofun⟩

namespace HoldsWords

variable {storage : Storage} {key : FilePath.Key} {store : BlockStore}

theorem size_lt (h : storage.HoldsWords) (hopen : storage.store? key = some store) :
    store.size < UInt64.size := by
  obtain ⟨front, back, hstores, -⟩ := List.lookup_eq_some_iff.mp hopen
  refine h (key, store) ?_
  rw [hstores]
  exact List.mem_append_right _ (List.mem_cons_self ..)

theorem setStore (h : storage.HoldsWords) (key : FilePath.Key) (hsize : store.size < UInt64.size) :
    (storage.setStore key store).HoldsWords := by
  intro entry hentry
  obtain ⟨old, hold, rfl⟩ := List.mem_map.mp hentry
  split
  · exact hsize
  · exact h old hold

theorem loadBlock (h : storage.HoldsWords) (key : FilePath.Key) (index : Nat) :
    (storage.loadBlock key index).2.HoldsWords := by
  rcases storage.loadBlock_cases key index with ⟨found, hload, -⟩ | ⟨store, hopen, hload⟩
  · rw [hload]
    exact h
  · have hstore := h.size_lt hopen
    rw [hload]
    exact h.setStore key hstore

theorem saveBlock (h : storage.HoldsWords) (key : FilePath.Key) (index : Nat) (data : Bytes) :
    (storage.saveBlock key index data).HoldsWords := by
  unfold Storage.saveBlock
  split
  · exact h
  · next store hopen =>
    have hsize := h.size_lt hopen
    split
    · exact h
    · next files hfiles =>
      have hnext : HoldsWords { storage with files } := h
      exact hnext.setStore key hsize

theorem addStore (h : storage.HoldsWords) (entry : CacheEntry) {size : Nat}
    (hsize : size < UInt64.size) (opened : Except FileError (FileId × FileTree)) :
    (storage.addStore entry size opened).2.HoldsWords := by
  cases opened with
  | error => exact h
  | ok opened =>
    intro added hadded
    rcases List.mem_cons.mp hadded with rfl | hold
    · exact hsize
    · exact h added hold

theorem openNew (h : storage.HoldsWords) (entry : CacheEntry) {size : Nat}
    (hsize : size < UInt64.size) : (storage.openNew entry size).2.HoldsWords := by
  unfold Storage.openNew
  split
  · exact h.addStore entry hsize _
  · exact h

theorem openStore (h : storage.HoldsWords) (entry : CacheEntry) {size : Nat}
    (hsize : size < UInt64.size) : (storage.openStore entry size).2.HoldsWords := by
  unfold Storage.openStore
  cases hopen : storage.store? entry.key with
  | none =>
    have hprepared : (storage.prepare entry).HoldsWords := h
    exact hprepared.openNew entry hsize
  | some store =>
    have hstore := h.size_lt hopen
    dsimp only
    split
    · exact h.setStore entry.key hstore
    · exact h

end HoldsWords

/-- A block that is loaded is no longer than a block may be. -/
theorem length_of_loadBlock {storage : Storage} {key : FilePath.Key} {index : Nat} {data : Bytes}
    (h : (storage.loadBlock key index).1 = some data) : data.length ≤ BlockStore.blockSize := by
  rcases storage.loadBlock_cases key index with ⟨found, hload, hlength⟩ | ⟨store, -, hload⟩
  · rw [hload] at h
    exact hlength data h
  · rw [hload] at h
    cases h

end Storage

/-! ### Disk caches -/

namespace DiskCache

variable {inner : Source (σ × World η)} {read : CheckedRead (σ × World η)}
  {innerRoom : ReadRoom (σ × World η)} {V : σ × η → Prop}

/-- The room that a read through a disk cache asks for.  With a store, that is what the store has of
the window; the blocks that are read from the source are not longer than a buffer can be. -/
def room (key : Option FilePath.Key) (innerRoom : ReadRoom (σ × World η)) : ReadRoom (σ × World η) :=
  fun offset len s =>
    match key.bind s.2.storage.store? with
    | some store => min (offset + len) store.size - offset
    | none => innerRoom offset len s

theorem follows_fetch (h : inner.Bounded read innerRoom (Beside V Storage.HoldsWords))
    (key : FilePath.Key) {grid : BlockGrid} {index : Nat}
    (hblock : grid.blockSize = BlockStore.blockSize) (htotal : grid.total < UInt64.size)
    (hinside : grid.start index < grid.total) :
    Follows (Beside V Storage.HoldsWords) (fetchChecked key read grid index)
      (fetch key inner grid index) fun block => block.length ≤ grid.blockSize := by
  intro s hs
  have hstart : index * grid.blockSize < grid.total := hinside
  refine .mul (by omega) (.sub (by omega) (.add (by omega) ?_))
  have hloaded : Outcome (Beside V Storage.HoldsWords) (fun _ => True)
      (fun found _ => ∀ data, found = some data → data.length ≤ grid.blockSize) s
      (storage.lift (fun s => s.loadBlock key index) s) := by
    refine ⟨⟨hs.1, hs.2.loadBlock key index⟩, id, fun data hdata => ?_⟩
    rw [hblock]
    exact Storage.length_of_loadBlock hdata
  refine .bind (.lift hloaded) fun found t ht hfound => ?_
  cases found with
  | some data => exact .pure ht (hfound data rfl)
  | none =>
    have hoffset : grid.start index < UInt64.size := Nat.lt_trans hinside htotal
    have hwidth : grid.width index ≤ BlockStore.blockSize := hblock ▸ grid.width_le index
    have hroom : innerRoom (grid.start index) (grid.width index) t ≤ Checked.maxRoom :=
      Nat.le_trans (h.room_le _ _ t) (Nat.le_trans hwidth (by decide))
    refine .bind (h.readAt hoffset _ ht hroom) fun data u hu hdata => ?_
    have hlength : data.length ≤ grid.blockSize := Nat.le_trans hdata.1 (grid.width_le index)
    refine .ite (fun _ => ?_) fun _ => .pure hu hlength
    refine .bind (Q := fun _ => True) (.lift ?_) fun _ v hv _ => .pure hv hlength
    exact ⟨⟨hu.1, hu.2.saveBlock key index data⟩, id, trivial⟩

theorem blockSize_grid_ne_zero (store : BlockStore) : store.grid.blockSize ≠ 0 :=
  Nat.ne_of_gt (by decide : 0 < BlockStore.blockSize)

/-- A read from a store stays inside the source. -/
theorem followed_readAt (h : inner.Bounded read innerRoom (Beside V Storage.HoldsWords))
    {key : Option FilePath.Key} {offset len : Nat} (hoffset : offset < UInt64.size)
    {s : σ × World η} (hs : Beside V Storage.HoldsWords s)
    (hroom : room key innerRoom offset len s ≤ Checked.maxRoom) :
    Followed (Beside V Storage.HoldsWords) Untimed (readAtChecked key read offset len)
      (readAt key inner offset len) (Fits offset len) s := by
  refine .peek (run_store? key s) ?_
  rw [room] at hroom
  cases key with
  | none => exact h.readAt hoffset len hs hroom
  | some key =>
    rw [Option.bind_some] at hroom ⊢
    cases hopen : s.2.storage.store? key with
    | none =>
      rw [hopen] at hroom
      exact h.readAt hoffset len hs hroom
    | some store =>
      rw [hopen] at hroom
      have hsize : store.size < UInt64.size := hs.2.size_lt hopen
      refine .ite (fun _ => .pure hs ⟨Nat.zero_le _, hoffset⟩) fun hsome => ?_
      dsimp only at hroom ⊢
      rw [Checked.min_addSaturating hsize]
      refine .sub (by omega) (.reserve hroom (.sub (by omega) ?_))
      have hend : min (offset + len) store.size ≤ store.grid.total := Nat.min_le_right _ _
      have hbegin : offset < min (offset + len) store.size := by omega
      have hfetch (index : Nat) (hinside : store.grid.start index < min (offset + len) store.size) :=
        follows_fetch h key rfl hsize (Nat.lt_of_lt_of_le hinside hend)
      have hfirst := hfetch (store.grid.indexOf offset)
        (Nat.lt_of_le_of_lt (store.grid.start_indexOf_le offset) hbegin)
      refine (BlockGrid.followed_window (blockSize_grid_ne_zero store) hsize hend hbegin hs
        (hfirst s hs) fun later _ => hfetch later).imp ?_
      intro data hdata
      constructor
      · omega
      · omega

/-- A read that asks for too much room stops before anything is read. -/
theorem stops_readAt (h : inner.Bounded read innerRoom (Beside V Storage.HoldsWords))
    {key : Option FilePath.Key} {offset len : Nat} (hoffset : offset < UInt64.size)
    {s : σ × World η} (hs : Beside V Storage.HoldsWords s)
    (hroom : Checked.maxRoom < room key innerRoom offset len s) :
    ((readAtChecked key read offset len).run s).1 = none := by
  unfold readAtChecked
  rw [Checked.run_bind_of (Checked.run_lift_of (run_store? key s))]
  rw [room] at hroom
  cases key with
  | none => exact h.stops hoffset hs hroom
  | some key =>
    rw [Option.bind_some] at hroom ⊢
    cases hopen : s.2.storage.store? key with
    | none =>
      rw [hopen] at hroom
      exact h.stops hoffset hs hroom
    | some store =>
      rw [hopen] at hroom
      have hsize : store.size < UInt64.size := hs.2.size_lt hopen
      dsimp only at hroom ⊢
      rw [if_neg (by omega), Checked.min_addSaturating hsize,
        Checked.run_bind_of (Checked.run_sub (by omega) s)]
      exact Checked.run_bind_of_none (Checked.run_reserve_of_lt hroom s)

/-- The size of a store that is open is a word. -/
theorem ensures_store? (key : Option FilePath.Key) :
    Ensures (Beside V Storage.HoldsWords) (fun _ => True) (store? key)
      fun store? _ => ∀ store, store? = some store → store.size < UInt64.size := by
  refine fun s hs => .same hs fun store hstore => ?_
  obtain ⟨key, -, hopen⟩ := Option.bind_eq_some_iff.mp hstore
  exact Storage.HoldsWords.size_lt hs.2 hopen

/-- The size of the store is told, or that of the source. -/
theorem ensures_size_word (h : inner.Bounded read innerRoom (Beside V Storage.HoldsWords))
    (key : Option FilePath.Key) :
    Ensures (Beside V Storage.HoldsWords) (fun _ => True) (size key inner)
      fun n _ => n < UInt64.size := by
  intro s hs
  refine (ensures_store? key s hs).bind fun store? t ht hstore => ?_
  cases store? with
  | none => exact h.size t ht
  | some store => exact .same ht (hstore store rfl)

/-- **A disk cache reads within bounds**, whatever its store has. -/
theorem bounded (key : Option FilePath.Key)
    (h : inner.Bounded read innerRoom (Beside V Storage.HoldsWords)) :
    (inner.diskCached key).Bounded (readAtChecked key read) (room key innerRoom)
      (Beside V Storage.HoldsWords) where
  isPresent := h.isPresent
  isDirectory := h.isDirectory
  failureCount := h.failureCount
  size := ensures_size_word h key
  room_le offset len s := by
    rw [room]
    split
    · omega
    · exact h.room_le offset len s
  readAt hoffset _ _ hs hroom := followed_readAt h hoffset hs hroom
  stops hoffset _ _ hs hroom := stops_readAt h hoffset hs hroom

/-- To open a store keeps what is known. -/
theorem ensures_openStore (h : inner.Bounded read innerRoom (Beside V Storage.HoldsWords))
    (directory : String) :
    Ensures (Beside V Storage.HoldsWords) (fun _ => True) (openStore directory inner)
      fun _ _ => True := by
  intro s hs
  refine (h.isPresent s hs).bind fun present t ht _ => ?_
  cases present with
  | false => exact .same ht trivial
  | true =>
    refine (h.isDirectory t ht).bind fun isDirectory u hu _ => ?_
    cases isDirectory with
    | true => exact .same hu trivial
    | false =>
      refine (h.size u hu).bind fun size v hv hsize => ?_
      rw [run_ite]
      split
      · exact .same hv trivial
      · exact ⟨⟨hv.1, hv.2.openStore _ hsize⟩, id, trivial⟩

end DiskCache

/-! ### Memory caches -/

namespace MemoryCache

variable {inner : Source σ} {read : CheckedRead σ} {innerRoom : ReadRoom σ} {V : σ → Prop}
  {policy : MemoryPolicy} {size? : Option Nat}

theorem grid_blockSize_ne_zero (policy : MemoryPolicy) (total : Nat) :
    (grid policy total).blockSize ≠ 0 :=
  Nat.ne_of_gt (Nat.le_max_right _ _)

/-- What `readAt` does once the size is known. -/
def readInside (policy : MemoryPolicy) (inner : Source σ) (offset len total : Nat) :
    StateM (MemoryCache × σ) Bytes :=
  if total ≤ offset ∨ len = 0 then
    pure []
  else
    let stop := min (offset + len) total
    let first := (grid policy total).indexOf offset
    let last := (grid policy total).indexOf (stop - 1)
    if policy.effectiveCapacity ≤ last - first then
      Focus.second.lift (inner.readAt offset (stop - offset))
    else
      (grid policy total).collect (fetch policy.effectiveCapacity inner (grid policy total)) offset
        stop (last - first + 1) first

theorem readAt_eq_readInside (policy : MemoryPolicy) (inner : Source σ) (offset len : Nat) :
    readAt policy inner offset len = size inner >>= readInside policy inner offset len := rfl

/-- The room that a read asks for once the size is known: that of the read past the cache, or a buffer
for the whole answer and what it takes to read the first block.  A block behind the first one is
never too long: at least as much lies before it, and the size of the source is a word. -/
def roomInside (policy : MemoryPolicy) (innerRoom : ReadRoom σ) (offset len total : Nat)
    (s : MemoryCache × σ) : Nat :=
  if total ≤ offset ∨ len = 0 then
    0
  else
    let stop := min (offset + len) total
    let first := (grid policy total).indexOf offset
    let last := (grid policy total).indexOf (stop - 1)
    if policy.effectiveCapacity ≤ last - first then
      innerRoom offset (stop - offset) s.2
    else
      max (stop - offset) <|
        match s.1.find? first with
        | some _ => 0
        | none => innerRoom ((grid policy total).start first) ((grid policy total).width first) s.2

/-- The room that a read through a memory cache asks for. -/
def room (policy : MemoryPolicy) (inner : Source σ) (innerRoom : ReadRoom σ) :
    ReadRoom (MemoryCache × σ) :=
  fun offset len s =>
    let told := size inner s
    roomInside policy innerRoom offset len told.1 told.2

/-- No more room is asked for than for the answer or for a block. -/
theorem room_le (h : inner.Bounded read innerRoom V) (offset len : Nat) (s : MemoryCache × σ) :
    room policy inner innerRoom offset len s ≤ max len policy.effectiveBlockSize := by
  rw [room, roomInside]
  generalize (size inner s).1 = total
  generalize (size inner s).2 = t
  dsimp only
  split
  · exact Nat.zero_le _
  split
  · exact Nat.le_trans (h.room_le _ _ _) (by omega)
  have hwidth := (grid policy total).width_le ((grid policy total).indexOf offset)
  have hblock : (grid policy total).blockSize = policy.effectiveBlockSize := rfl
  refine Nat.max_le.mpr ⟨by omega, ?_⟩
  split
  · exact Nat.zero_le _
  · exact Nat.le_trans (h.room_le _ _ _) (by omega)

/-- The clock of the cache has run out of its range. -/
def Spent (s : MemoryCache × σ) : Prop :=
  UInt64.size ≤ s.1.clock

/-- The cache remembers the given size, which is a word, or none; and the blocks that it keeps are
as long as blocks of a source of this size. -/
structure Keeps (policy : MemoryPolicy) (size? : Option Nat) (cache : MemoryCache) : Prop where
  size : cache.rememberedSize = size?
  isWord : ∀ total, size? = some total → total < UInt64.size
  blocks : ∀ block ∈ cache.blocks, ∃ total, size? = some total ∧
    block.data.length = (grid policy total).width block.index

/-- A memory cache that keeps what it may, in front of a source with the property `V`. -/
def Keeping (policy : MemoryPolicy) (V : σ → Prop) (size? : Option Nat) (s : MemoryCache × σ) :
    Prop :=
  V (Focus.second.get s) ∧ Keeps policy size? s.1

namespace Keeps

variable {cache : MemoryCache} {index : Nat}

theorem initial (policy : MemoryPolicy) : Keeps policy none {} where
  size := rfl
  isWord := nofun
  blocks := nofun

theorem length_of_find? {total : Nat} (h : Keeps policy (some total) cache) {block : KeptBlock}
    (hfound : cache.find? index = some block) :
    block.data.length = (grid policy total).width index := by
  obtain ⟨_, ⟨⟩, hlength⟩ := h.blocks block (List.mem_of_find?_eq_some hfound)
  have hindex : block.index = index := by simpa using List.find?_some hfound
  rw [hlength, hindex]

theorem touch (h : Keeps policy size? cache) (index : Nat) :
    Keeps policy size? (cache.touch index) where
  size := h.size
  isWord := h.isWord
  blocks touched htouched := by
    obtain ⟨old, hold, hindex, hdata⟩ := exists_of_mem_touch htouched
    rw [hdata, hindex]
    exact h.blocks old hold

theorem insert {total : Nat} (h : Keeps policy (some total) cache) (capacity : Nat) {data : Bytes}
    (hdata : data.length = (grid policy total).width index) :
    Keeps policy (some total) (cache.insert capacity index data) where
  size := h.size
  isWord := h.isWord
  blocks block hblock := by
    rcases mem_insert hblock with ⟨hindex, hkept⟩ | hold
    · rw [hkept, hindex]
      exact ⟨total, rfl, hdata⟩
    · exact h.blocks block hold

end Keeps

/-- A read of the source behind a cache leaves the cache as it is, and so the clock. -/
theorem followed_behind (h : inner.Bounded read innerRoom V) {offset len : Nat}
    {s : MemoryCache × σ} (hs : Keeping policy V size? s) (hoffset : offset < UInt64.size)
    (hroom : innerRoom offset len s.2 ≤ Checked.maxRoom) :
    Followed (Keeping policy V size?) Spent ((read offset len).within Focus.second)
      (Focus.second.lift (inner.readAt offset len)) (Fits offset len) s :=
  ((h.readAt hoffset len hs.1 hroom).within Focus.second (fun _ _ hkeeps => hkeeps) hs.2).steady .rfl

/-- A use of a block stops at the end of the clock's range, and is followed until then. -/
theorem followed_tick {change : StateM (MemoryCache × σ) PUnit} {data : Bytes} {Q : Bytes → Prop}
    {s : MemoryCache × σ} (hchange : Keeping policy V size? (change s).2)
    (hclock : (change s).2.1.clock = s.1.clock + 1) (hdata : Q data) :
    Followed (Keeping policy V size?) Spent
      (checkClock >>= fun _ => Checked.lift change >>= fun _ => pure data)
      (change >>= fun _ => pure data) Q s := by
  have hplain : (change >>= fun _ => pure data : StateM (MemoryCache × σ) Bytes) s =
      (data, (change s).2) := rfl
  by_cases hword : s.1.clock + 1 < UInt64.size
  case pos =>
    have hcheck : checkClock.run s = (some (), s) :=
      (Checked.run_bind_of (by rfl)).trans (Checked.run_bind_of (Checked.run_add hword s))
    refine .compute hcheck ⟨fun _ => rfl, fun _ hspent => ?_, fun hspent => ?_, hchange, id, hdata⟩
    · rw [hplain, Spent, hclock] at hspent
      omega
    · rw [Spent] at hspent
      omega
  case neg =>
    have hout : Spent (change s).2 := by
      rw [Spent, hclock]
      omega
    have hcheck : ((checkClock : Checked (MemoryCache × σ) Unit).run s).1 = none := by
      rw [checkClock, Checked.run_bind_of (by rfl)]
      exact Checked.run_bind_of_none (Checked.run_fit_of_le (Nat.not_lt.mp hword) s)
    exact ⟨fun hmore => absurd hout hmore, fun _ _ => Checked.run_bind_of_none hcheck,
      fun _ => hout, hchange, id, hdata⟩

theorem followed_fetch (h : inner.Bounded read innerRoom V) (capacity : Nat) {total index : Nat}
    {s : MemoryCache × σ} (hs : Keeping policy V (some total) s)
    (hinside : (grid policy total).start index < total)
    (hroom : s.1.find? index = none →
      innerRoom ((grid policy total).start index) ((grid policy total).width index) s.2 ≤
        Checked.maxRoom) :
    Followed (Keeping policy V (some total)) Spent
      (fetchChecked capacity read (grid policy total) index)
      (fetch capacity inner (grid policy total) index)
      (fun block => block.length ≤ (grid policy total).width index) s := by
  refine .look ?_
  cases hfound : s.1.find? index with
  | some block =>
    have hget : (Focus.first.get s).find? index = some block := hfound
    rw [hget]
    exact followed_tick ⟨hs.1, hs.2.touch index⟩ rfl (Nat.le_of_eq (hs.2.length_of_find? hfound))
  | none =>
    have hget : (Focus.first.get s).find? index = none := hfound
    rw [hget]
    have hword := Nat.lt_trans hinside (hs.2.isWord total rfl)
    refine .mul hword (.sub (Nat.le_of_lt hinside) ?_)
    refine .bind (followed_behind h hs hword (hroom hfound)) fun data t ht hdata => ?_
    refine .ite (fun _ => .pure ht hdata.1) fun hcomplete => ?_
    have hwidth : data.length = (grid policy total).width index :=
      Nat.le_antisymm hdata.1 (Nat.not_lt.mp (not_or.mp hcomplete).2)
    exact followed_tick ⟨ht.1, ht.2.insert capacity hwidth⟩ rfl hdata.1

/-- A block that is too long for a buffer and is not kept stops the read. -/
theorem stops_fetch (h : inner.Bounded read innerRoom V) (capacity : Nat) {total index : Nat}
    {s : MemoryCache × σ} (hs : Keeping policy V (some total) s)
    (hinside : (grid policy total).start index < total) (hmissing : s.1.find? index = none)
    (hroom : Checked.maxRoom <
      innerRoom ((grid policy total).start index) ((grid policy total).width index) s.2) :
    ((fetchChecked capacity read (grid policy total) index).run s).1 = none := by
  have hword := Nat.lt_trans hinside (hs.2.isWord total rfl)
  have hget : (Checked.lift (Focus.first.lift get)).run s = (some s.1, s) := rfl
  rw [fetchChecked, Checked.run_bind_of hget, hmissing]
  dsimp only
  have hleft : (Checked.sub (grid policy total).total ((grid policy total).start index)).run s =
      (some _, s) := Checked.run_sub (Nat.le_of_lt hinside) s
  rw [Checked.run_bind_of (Checked.run_mul hword s)]
  refine (congrArg Prod.fst (Checked.run_bind_of hleft)).trans ?_
  exact Checked.run_bind_of_none (h.stops hword hs.1 hroom)

/-- Behind the first block of a source there is none that is too long for a buffer. -/
theorem width_le_maxRoom (policy : MemoryPolicy) {total index : Nat} (htotal : total < UInt64.size)
    (hindex : 0 < index) :
    (grid policy total).width index ≤ Checked.maxRoom := by
  have hstart : policy.effectiveBlockSize ≤ (grid policy total).start index :=
    Nat.le_mul_of_pos_left _ hindex
  rw [BlockGrid.width, Checked.maxRoom]
  change min policy.effectiveBlockSize (total - (grid policy total).start index) ≤ _
  have hhalf : UInt64.size = 2 * (UInt64.size / 2) := rfl
  omega

/-- **Once the size is known, a read stays inside the source**: it delivers no more than is asked
for, and no more than there is behind the offset. -/
theorem followed_readInside (h : inner.Bounded read innerRoom V) {offset len total : Nat}
    {s : MemoryCache × σ} (hs : Keeping policy V (some total) s)
    (hroom : roomInside policy innerRoom offset len total s ≤ Checked.maxRoom) :
    Followed (Keeping policy V (some total)) Spent
      (readInsideChecked policy read offset len total) (readInside policy inner offset len total)
      (fun data => data.length ≤ len ∧ data.length ≤ total - offset) s := by
  have htotal := hs.2.isWord total rfl
  unfold readInsideChecked readInside
  refine .ite (fun _ => .pure hs ⟨Nat.zero_le _, Nat.zero_le _⟩) fun hsome => ?_
  rw [roomInside, if_neg hsome] at hroom
  dsimp only at hroom ⊢
  rw [Checked.min_addSaturating htotal]
  generalize hstop : min (offset + len) total = stop at hroom ⊢
  have hoffset : offset < stop := by omega
  have hfits {data : Bytes} (hdata : data.length ≤ stop - offset) :
      data.length ≤ len ∧ data.length ≤ total - offset := by
    constructor
    · omega
    · omega
  have horder : (grid policy total).indexOf offset ≤ (grid policy total).indexOf (stop - 1) :=
    Nat.div_le_div_right (by omega)
  refine .sub (by omega) (.sub horder (.sub (by omega) (.ite (fun hpast => ?_) fun hfew => ?_)))
  · rw [if_pos hpast] at hroom
    have hstart : offset < UInt64.size := Nat.lt_trans (by omega : offset < total) htotal
    exact (followed_behind h hs hstart hroom).imp fun data hdata => hfits hdata.1
  · rw [if_neg hfew] at hroom
    obtain ⟨hbuffer, hblock⟩ := Nat.max_le.mp hroom
    have hend : stop ≤ (grid policy total).total := hstop ▸ Nat.min_le_right _ _
    refine .reserve hbuffer (.imp ?_ fun data => hfits)
    refine BlockGrid.followed_window (grid_blockSize_ne_zero policy total) htotal hend hoffset hs
      ?first fun later hlater hinside t ht => ?later
    case first =>
      have hinside := Nat.lt_of_le_of_lt ((grid policy total).start_indexOf_le offset)
        (Nat.lt_of_lt_of_le hoffset hend)
      refine (followed_fetch h policy.effectiveCapacity hs hinside fun hmissing => ?_).imp
        fun block hlength => Nat.le_trans hlength ((grid policy total).width_le _)
      rw [hmissing] at hblock
      exact hblock
    case later =>
      have hwidth := width_le_maxRoom policy htotal (Nat.zero_lt_of_lt hlater)
      refine (followed_fetch h policy.effectiveCapacity ht (Nat.lt_of_lt_of_le hinside hend)
        fun _ => Nat.le_trans (h.room_le _ _ _) hwidth).imp
        fun block hlength => Nat.le_trans hlength ((grid policy total).width_le _)

/-- A cache that remembers the given size, or none, may tell `total`. -/
def MayTell (size? : Option Nat) (total : Nat) : Prop :=
  ∀ n, size? = some n → n = total

/-- A cache that remembers no size may tell any. -/
theorem MayTell.of_none (total : Nat) : MayTell none total := by
  intro n hn
  cases hn

/-- When the size is asked for, the cache tells the one that it remembers, or learns one. -/
theorem Keeping.run_size {s : MemoryCache × σ} (h : inner.Bounded read innerRoom V)
    (hs : Keeping policy V size? s) :
    ∃ total t, MemoryCache.size inner s = (total, t) ∧ MayTell size? total ∧
      Keeping policy V (some total) t ∧ t.1.clock = s.1.clock := by
  obtain ⟨hinner, hkeeps⟩ := hs
  cases size? with
  | some total =>
    refine ⟨total, s, ?_, fun n hn => (Option.some.inj hn).symm, ⟨hinner, hkeeps⟩, rfl⟩
    simp [MemoryCache.size, hkeeps.size]
  | none =>
    have hsize := h.size s.2 hinner
    refine ⟨(inner.size s.2).1, ({ s.1 with rememberedSize := some (inner.size s.2).1 },
      (inner.size s.2).2), ?_, .of_none _, ⟨hsize.valid, ?_⟩, rfl⟩
    · simp [MemoryCache.size, hkeeps.size]
    · constructor
      case size => rfl
      case isWord =>
        rintro _ ⟨⟩
        exact hsize.post
      case blocks =>
        intro block hblock
        obtain ⟨_, hnone, -⟩ := hkeeps.blocks block hblock
        cases hnone

/-- The clock advances with a block only if the block is whole. -/
theorem clock_fetch_le (capacity : Nat) (inner : Source σ) {total index : Nat}
    {s : MemoryCache × σ} (hs : Keeping policy V (some total) s) :
    let result := fetch capacity inner (grid policy total) index s
    result.2.1.clock ≤ s.1.clock + 1 ∧
      (result.1.length < (grid policy total).width index → result.2.1.clock ≤ s.1.clock) := by
  -- As the end of an action the pair can be followed through the steps of `fetch`.
  suffices h : Outcome (fun _ => True) (fun _ => True)
      (fun data t => t.1.clock ≤ s.1.clock + 1 ∧
        (data.length < (grid policy total).width index → t.1.clock ≤ s.1.clock)) s
      (fetch capacity inner (grid policy total) index s) from h.post
  apply Outcome.look
  cases hfound : (Focus.first.get s).find? index with
  | some block =>
    refine ⟨trivial, id, Nat.le_refl _, fun hshort => absurd hshort ?_⟩
    exact Nat.not_lt_of_le (Nat.le_of_eq (hs.2.length_of_find? hfound).symm)
  | none =>
    refine Outcome.bind (Q := fun _ t => t.1.clock = s.1.clock) ⟨trivial, id, rfl⟩ ?_
    intro data t _ hclock
    have hsame := Nat.le_of_eq hclock
    rw [run_ite]
    split
    · exact .same trivial ⟨Nat.le_succ_of_le hsame, fun _ => hsame⟩
    · next hcomplete =>
      exact ⟨trivial, id, Nat.succ_le_succ hsame,
        fun hshort => absurd (.inr hshort) hcomplete⟩

theorem advances_fetch (h : inner.Bounded read innerRoom V) (capacity : Nat) {total index : Nat}
    {s : MemoryCache × σ} (hs : Keeping policy V (some total) s)
    (hinside : (grid policy total).start index < total)
    (hroom : s.1.find? index = none →
      innerRoom ((grid policy total).start index) ((grid policy total).width index) s.2 ≤
        Checked.maxRoom) :
    (grid policy total).Advances (Keeping policy V (some total)) (fun s => s.1.clock) index s
      (fetch capacity inner (grid policy total) index s) where
  valid := (followed_fetch h capacity hs hinside hroom).outcome.valid
  le_succ := (clock_fetch_le capacity inner hs).1
  le_of_short := (clock_fetch_le capacity inner hs).2

/-- A read makes the clock advance by no more than the bytes that it delivers. -/
theorem clock_readInside_le (h : inner.Bounded read innerRoom V) {offset len total : Nat}
    {s : MemoryCache × σ} (hs : Keeping policy V (some total) s)
    (hroom : roomInside policy innerRoom offset len total s ≤ Checked.maxRoom) :
    (readInside policy inner offset len total s).2.1.clock ≤
      s.1.clock + (readInside policy inner offset len total s).1.length := by
  have htotal := hs.2.isWord total rfl
  rw [roomInside] at hroom
  unfold readInside
  by_cases hnothing : total ≤ offset ∨ len = 0
  · rw [if_pos hnothing]
    exact Nat.le_add_right _ _
  rw [if_neg hnothing] at hroom ⊢
  dsimp only at hroom ⊢
  rw [run_ite]
  by_cases hpast : policy.effectiveCapacity ≤ (grid policy total).indexOf
      (min (offset + len) total - 1) - (grid policy total).indexOf offset
  · rw [if_pos hpast]
    exact Nat.le_add_right _ _
  rw [if_neg hpast] at hroom ⊢
  obtain ⟨-, hblock⟩ := Nat.max_le.mp hroom
  have hend : min (offset + len) total ≤ (grid policy total).total := Nat.min_le_right _ _
  have hoffset : offset < min (offset + len) total := by omega
  refine BlockGrid.measure_collect_le (V := Keeping policy V (some total)) (fun s => s.1.clock)
    (grid_blockSize_ne_zero policy total) hoffset hend _
    ((grid policy total).lt_start_indexOf_succ (grid_blockSize_ne_zero policy total) offset)
    (fun _ hk => (grid policy total).start_lt_of_read hoffset hk) (fun _ => ?first)
    fun later hlater hinside t ht => ?later
  case first =>
    have hinside := Nat.lt_of_le_of_lt ((grid policy total).start_indexOf_le offset)
      (Nat.lt_of_lt_of_le hoffset hend)
    refine advances_fetch h _ hs hinside fun hmissing => ?_
    rw [hmissing] at hblock
    exact hblock
  case later =>
    have hwidth := width_le_maxRoom policy htotal (Nat.zero_lt_of_lt hlater)
    exact advances_fetch h _ ht (Nat.lt_of_lt_of_le hinside hend)
      fun _ => Nat.le_trans (h.room_le _ _ _) hwidth

/-- A read that asks for too much room stops before anything is delivered. -/
theorem stops_readInside (h : inner.Bounded read innerRoom V) {offset len total : Nat}
    {s : MemoryCache × σ} (hs : Keeping policy V (some total) s)
    (hroom : Checked.maxRoom < roomInside policy innerRoom offset len total s) :
    ((readInsideChecked policy read offset len total).run s).1 = none := by
  have htotal := hs.2.isWord total rfl
  rw [roomInside] at hroom
  split at hroom
  · exact absurd hroom (Nat.not_lt_zero _)
  next hsome =>
  dsimp only at hroom
  unfold readInsideChecked
  rw [if_neg hsome]
  dsimp only
  rw [Checked.min_addSaturating htotal]
  generalize hstop : min (offset + len) total = stop at hroom ⊢
  have hoffset : offset < stop := by omega
  have horder : (grid policy total).indexOf offset ≤ (grid policy total).indexOf (stop - 1) :=
    Nat.div_le_div_right (by omega)
  rw [Checked.run_bind_of (Checked.run_sub (by omega) s), Checked.run_bind_of
    (Checked.run_sub horder s), Checked.run_bind_of (Checked.run_sub (by omega) s)]
  by_cases hpast : policy.effectiveCapacity ≤
      (grid policy total).indexOf (stop - 1) - (grid policy total).indexOf offset
  · rw [if_pos hpast] at hroom ⊢
    exact h.stops (Nat.lt_trans (by omega : offset < total) htotal) hs.1 hroom
  rw [if_neg hpast] at hroom ⊢
  by_cases hbuffer : Checked.maxRoom < stop - offset
  · exact Checked.run_bind_of_none (Checked.run_reserve_of_lt hbuffer s)
  rw [Checked.run_bind_of (Checked.run_reserve (Nat.not_lt.mp hbuffer) s)]
  apply BlockGrid.stops_collect
  have hinside : (grid policy total).start ((grid policy total).indexOf offset) < total :=
    Nat.lt_of_le_of_lt ((grid policy total).start_indexOf_le offset) (by omega)
  have hblock := Nat.not_le.mp fun hle =>
    Nat.not_le.mpr hroom (Nat.max_le.mpr ⟨Nat.not_lt.mp hbuffer, hle⟩)
  cases hkept : s.1.find? ((grid policy total).indexOf offset) with
  | some block =>
    rw [hkept] at hblock
    exact absurd hblock (Nat.not_lt_zero _)
  | none =>
    rw [hkept] at hblock
    exact stops_fetch h _ hs hinside hkept hblock

/-- A read learns the size first, or knows it. -/
theorem readAt_of_size {offset len total : Nat} {s t : MemoryCache × σ}
    (hsize : size inner s = (total, t)) :
    readAt policy inner offset len s = readInside policy inner offset len total t := by
  rw [readAt_eq_readInside, run_bind, hsize]

theorem readAtChecked_of_size {offset len total : Nat} {s t : MemoryCache × σ}
    (hsize : size inner s = (total, t)) :
    (readAtChecked policy inner read offset len).run s =
      (readInsideChecked policy read offset len total).run t :=
  Checked.run_bind_of (Checked.run_lift_of hsize)

/-- A read that asks for too much room stops. -/
theorem Keeping.stops_readAt {s : MemoryCache × σ} (h : inner.Bounded read innerRoom V)
    (hs : Keeping policy V size? s) {offset len : Nat}
    (hroom : Checked.maxRoom < MemoryCache.room policy inner innerRoom offset len s) :
    ((MemoryCache.readAtChecked policy inner read offset len).run s).1 = none := by
  obtain ⟨total, t, hsize, -, ht, -⟩ := hs.run_size h
  rw [MemoryCache.room, hsize] at hroom
  rw [readAtChecked_of_size hsize]
  exact stops_readInside h ht hroom

/-- **Any other read tells or learns the size, and stays inside the source.**  It stops just if the
clock runs out of its range. -/
theorem Keeping.followed_readAt {s : MemoryCache × σ} (h : inner.Bounded read innerRoom V)
    (hs : Keeping policy V size? s) {offset len : Nat}
    (hroom : MemoryCache.room policy inner innerRoom offset len s ≤ Checked.maxRoom) :
    ∃ total, MayTell size? total ∧
      Followed (Keeping policy V (some total)) Spent
        (MemoryCache.readAtChecked policy inner read offset len)
        (MemoryCache.readAt policy inner offset len)
        (fun data => data.length ≤ len ∧ data.length ≤ total - offset) s ∧
      (MemoryCache.readAt policy inner offset len s).2.1.clock ≤
        s.1.clock + (MemoryCache.readAt policy inner offset len s).1.length := by
  obtain ⟨total, t, hsize, hmay, ht, hclock⟩ := hs.run_size h
  rw [MemoryCache.room, hsize] at hroom
  have hfirst : Followed (Keeping policy V (some total)) Spent (Checked.lift (size inner))
      (size inner) (fun _ => True) s := by
    refine .steady (.lift ?_) ?_
    · rw [hsize]
      exact ⟨ht, id, trivial⟩
    · rw [hsize, Spent, Spent, hclock]
  refine ⟨total, hmay, hfirst.seq ?_, ?_⟩
  · rw [hsize]
    exact followed_readInside h ht hroom
  · rw [readAt_of_size hsize, ← hclock]
    exact clock_readInside_le h ht hroom

end MemoryCache

end PspBoot
