import PspBoot.Proofs.Source.BoundedCaches
import PspBoot.Proofs.Source.Faltering

/-!
# Memory caches keep the blocks that were used last

The stamps of a memory cache stand for an order of use.  `RecentBlocks` is the cache as one would
describe it without stamps: a list of block numbers, the most recently used first.  A block that is
used comes to the front, one that is new comes to the front and may push out the last, and nothing
else changes the list.

The cache and the list are read side by side.  `Arranges` says that they belong together: in the
order of their stamps, the latest first, the kept blocks have the numbers of the list.  Every stamp
is a reading of the clock that no other block has, so the block with the least stamp is the last of
the list.
-/

namespace PspBoot

/-- The numbers of the blocks that a cache keeps, the most recently used first. -/
structure RecentBlocks where
  /-- The size of the source, from the first time it was asked for. -/
  rememberedSize : Option Nat := none
  order : List Nat := []
  /-- How often a block was wanted. -/
  accesses : Nat := 0
deriving Repr, DecidableEq

/-- The numbers of the blocks that a read touches, in ascending order. -/
def BlockGrid.touched (grid : BlockGrid) (offset len : Nat) : List Nat :=
  if grid.total ≤ offset ∨ len = 0 then
    []
  else
    List.range' (grid.indexOf offset) (grid.span offset (min (offset + len) grid.total))

namespace RecentBlocks

variable {σ : Type}

/-- One more block is wanted. -/
def want (recent : RecentBlocks) : RecentBlocks :=
  { recent with accesses := recent.accesses + 1 }

/-- A block that is kept comes to the front. -/
def use (recent : RecentBlocks) (index : Nat) : RecentBlocks :=
  { recent with order := index :: recent.order.erase index }

/-- A new block comes to the front.  If there are too many then, the last one is dropped. -/
def push (capacity : Nat) (recent : RecentBlocks) (index : Nat) : RecentBlocks :=
  let order := index :: recent.order
  { recent with order := if capacity < order.length then order.dropLast else order }

/-- The size of the source, asked for once. -/
def size (inner : Source σ) : StateM (RecentBlocks × σ) Nat := do
  let recent ← Focus.first.lift get
  match recent.rememberedSize with
  | some size => pure size
  | none =>
      let size ← Focus.second.lift inner.size
      Focus.first.lift (modify fun recent => { recent with rememberedSize := some size })
      pure size

/-- A block is wanted, and the source is read if the block is not kept.  The answer tells whether
the block is there in full. -/
def access (capacity : Nat) (inner : Source σ) (grid : BlockGrid) (index : Nat) :
    StateM (RecentBlocks × σ) Bool := do
  Focus.first.lift (modify want)
  let recent ← Focus.first.lift get
  if index ∈ recent.order then
    Focus.first.lift (set (recent.use index))
    pure true
  else
    let data ← Focus.second.lift (inner.readAt (grid.start index) (grid.width index))
    if data.length < grid.width index then
      pure false
    else
      Focus.first.lift (modify fun recent => recent.push capacity index)
      pure true

/-- Blocks are wanted one after the other, up to the first one that is not there in full. -/
def accessAll (capacity : Nat) (inner : Source σ) (grid : BlockGrid) :
    List Nat → StateM (RecentBlocks × σ) Bool
  | [] => pure true
  | index :: indices => do
      if ← access capacity inner grid index then
        accessAll capacity inner grid indices
      else
        pure false

/-- A read that touches more blocks than can be kept is passed on as one read of the source.  For
any other read the blocks are wanted that it touches. -/
def readAt (policy : MemoryPolicy) (inner : Source σ) (offset len : Nat) :
    StateM (RecentBlocks × σ) Unit := do
  let total ← size inner
  let grid := MemoryCache.grid policy total
  if policy.effectiveCapacity < (grid.touched offset len).length then
    let _ ← Focus.second.lift (inner.readAt offset (min (offset + len) total - offset))
  else
    let _ ← accessAll policy.effectiveCapacity inner grid (grid.touched offset len)

/-- Several reads, one after the other. -/
def readAll (policy : MemoryPolicy) (inner : Source σ) :
    List (Nat × Nat) → StateM (RecentBlocks × σ) Unit
  | [] => pure ()
  | (offset, len) :: reads => do
      readAt policy inner offset len
      readAll policy inner reads

end RecentBlocks

/-! ### Stamps and the order of use -/

namespace MemoryCache

theorem touched_eq_nil (policy : MemoryPolicy) {total offset len : Nat}
    (h : total ≤ offset ∨ len = 0) : (grid policy total).touched offset len = [] :=
  if_pos h

theorem touched_eq_range' (policy : MemoryPolicy) {total offset len : Nat}
    (h : ¬(total ≤ offset ∨ len = 0)) :
    (grid policy total).touched offset len =
      List.range' ((grid policy total).indexOf offset)
        ((grid policy total).span offset (min (offset + len) total)) :=
  if_neg h

/-- A read that touches too many blocks goes past the cache. -/
theorem readAt_eq_readPast {σ : Type} {policy : MemoryPolicy} {inner : Source σ}
    {offset len total : Nat} {s : MemoryCache × σ} (htotal : (size inner s).1 = total)
    (hmany : policy.effectiveCapacity < ((grid policy total).touched offset len).length) :
    readAt policy inner offset len s =
      readPast inner offset (min (offset + len) total) (size inner s).2 := by
  have hsome : ¬(total ≤ offset ∨ len = 0) := by
    intro hnothing
    rw [touched_eq_nil policy hnothing] at hmany
    exact Nat.not_lt_zero _ hmany
  rw [touched_eq_range' policy hsome, List.length_range'] at hmany
  rw [readAt_eq_readInside, run_bind, htotal, readInside, if_neg hsome, run_ite,
    if_pos (Nat.le_of_lt_succ hmany)]
  rfl

/-- Among blocks there is one that was used before all others. -/
theorem exists_leastRecent? {blocks : List KeptBlock} (h : blocks ≠ []) :
    ∃ oldest ∈ blocks, leastRecent? blocks = some oldest ∧
      ∀ block ∈ blocks, oldest.stamp ≤ block.stamp := by
  induction blocks with
  | nil => exact absurd rfl h
  | cons block blocks ih =>
    cases blocks with
    | nil => exact ⟨block, List.mem_cons_self .., rfl, by simp⟩
    | cons next blocks =>
      obtain ⟨oldest, hmem, hleast, hbefore⟩ := ih (List.cons_ne_nil _ _)
      rw [leastRecent?, hleast]
      dsimp only
      by_cases hle : block.stamp ≤ oldest.stamp
      · refine ⟨block, List.mem_cons_self .., if_pos hle, ?_⟩
        rintro other (_ | ⟨_, hother⟩)
        · exact Nat.le_refl _
        · exact Nat.le_trans hle (hbefore other hother)
      · refine ⟨oldest, List.mem_cons_of_mem _ hmem, if_neg hle, ?_⟩
        rintro other (_ | ⟨_, hother⟩)
        · exact Nat.le_of_not_le hle
        · exact hbefore other hother

/-- If the kept blocks are arranged by their stamps, the last one makes room. -/
theorem perm_evict {front blocks : List KeptBlock} {last : KeptBlock}
    (hperm : (front ++ [last]).Perm blocks)
    (hstamps : (front ++ [last]).Pairwise fun newer older => older.stamp < newer.stamp)
    (hnodup : ((front ++ [last]).map (·.index)).Nodup) : front.Perm (evict blocks) := by
  have hlater : ∀ block ∈ front, last.stamp < block.stamp := fun block hblock =>
    (List.pairwise_append.mp hstamps).2.2 block hblock last (List.mem_singleton_self _)
  have hlast : last ∈ blocks := hperm.mem_iff.mp (List.mem_append_right _ (List.mem_singleton_self _))
  obtain ⟨oldest, hmem, hleast, hbefore⟩ := exists_leastRecent? (List.ne_nil_of_mem hlast)
  obtain rfl : oldest = last := by
    rcases List.mem_append.mp (hperm.mem_iff.mpr hmem) with hfront | hsingle
    · have hless := hlater oldest hfront
      have hle := hbefore last hlast
      omega
    · exact List.mem_singleton.mp hsingle
  have hkeep : front.filter (·.index ≠ oldest.index) = front := by
    apply List.filter_eq_self.mpr
    intro block hblock
    rw [List.map_append, List.nodup_append] at hnodup
    have hne := hnodup.2.2 block.index (List.mem_map_of_mem hblock) oldest.index (by simp)
    simpa using hne
  have hfilter := hperm.filter (·.index ≠ oldest.index)
  rw [List.filter_append, hkeep] at hfilter
  rw [evict, hleast]
  simpa using hfilter

/-- Of the kept blocks only the one that is used gets another stamp. -/
theorem perm_touch {cache : MemoryCache} {front back : List KeptBlock} {used : KeptBlock}
    (hperm : (front ++ used :: back).Perm cache.blocks)
    (hnodup : ((front ++ used :: back).map (·.index)).Nodup) :
    ({ used with stamp := cache.clock + 1 } :: (front ++ back)).Perm
      (cache.touch used.index).blocks := by
  rw [List.map_append, List.map_cons] at hnodup
  obtain ⟨-, hback, hapart⟩ := List.nodup_append.mp hnodup
  have hfront : ∀ block ∈ front, block.index ≠ used.index := fun block hblock =>
    hapart _ (List.mem_map_of_mem hblock) _ (List.mem_cons_self ..)
  have hrest : ∀ block ∈ back, block.index ≠ used.index := fun block hblock heq =>
    (List.nodup_cons.mp hback).1 (heq ▸ List.mem_map_of_mem hblock)
  have htouch := hperm.map fun block => if block.index = used.index then
    { block with stamp := cache.clock + 1 } else block
  rw [List.map_append, List.map_cons, if_pos rfl,
    List.map_congr_left fun block hblock => if_neg (hfront block hblock),
    List.map_congr_left fun block hblock => if_neg (hrest block hblock),
    List.map_id', List.map_id'] at htouch
  exact List.perm_middle.symm.trans htouch

variable {σ : Type} {inner : Source σ} {capacity index : Nat} {grid : BlockGrid}
  {cache : MemoryCache} {s : σ}

/-- A block that is kept is delivered, and it has been used. -/
theorem fetch_of_kept {block : KeptBlock} (hfound : cache.find? index = some block) :
    fetch capacity inner grid index (cache, s) = (block.data, (cache.touch index, s)) := by
  simp [fetch, hfound]

/-- A block that is not kept and comes as a whole is kept from now on. -/
theorem fetch_of_whole (hfree : cache.find? index = none) (hwidth : 0 < grid.width index)
    (hwhole : grid.width index ≤ (inner.readAt (grid.start index) (grid.width index) s).1.length) :
    fetch capacity inner grid index (cache, s) =
      ((inner.readAt (grid.start index) (grid.width index) s).1,
        (cache.insert capacity index (inner.readAt (grid.start index) (grid.width index) s).1,
          (inner.readAt (grid.start index) (grid.width index) s).2)) := by
  have hsome : (inner.readAt (grid.start index) (grid.width index) s).1 ≠ [] := by
    rintro hnil
    rw [hnil] at hwhole
    exact absurd hwidth (Nat.not_lt.mpr hwhole)
  simp [fetch, hfree, hsome, Nat.not_lt.mpr hwhole]

end MemoryCache

namespace RecentBlocks

/-- The cache keeps the blocks of the list, and its stamps stand for the order of the list. -/
structure Arranges (policy : MemoryPolicy) (cache : MemoryCache) (recent : RecentBlocks) :
    Prop where
  size : cache.rememberedSize = recent.rememberedSize
  order : ∃ blocks : List KeptBlock, blocks.Perm cache.blocks ∧
    blocks.map (·.index) = recent.order ∧
    blocks.Pairwise fun newer older => older.stamp < newer.stamp
  nodup : recent.order.Nodup
  room : recent.order.length ≤ policy.effectiveCapacity
  stamps : ∀ block ∈ cache.blocks, block.stamp ≤ cache.clock
  clock : cache.clock ≤ recent.accesses
  whole : ∀ block ∈ cache.blocks, ∃ total, cache.rememberedSize = some total ∧
    (MemoryCache.grid policy total).width block.index ≤ block.data.length

namespace Arranges

variable {policy : MemoryPolicy} {cache : MemoryCache} {recent : RecentBlocks} {index : Nat}

theorem initial (policy : MemoryPolicy) : Arranges policy {} {} where
  size := rfl
  order := ⟨[], .refl _, rfl, .nil⟩
  nodup := List.nodup_nil
  room := Nat.zero_le _
  stamps := nofun
  clock := Nat.le_refl _
  whole := nofun

/-- As many blocks are kept as the list has numbers. -/
theorem length_eq (h : Arranges policy cache recent) :
    cache.blocks.length = recent.order.length := by
  obtain ⟨blocks, hperm, hindices, -⟩ := h.order
  rw [← hperm.length_eq, ← hindices, List.length_map]

/-- The numbers of the list are those of the kept blocks. -/
theorem mem_order_iff (h : Arranges policy cache recent) (index : Nat) :
    index ∈ recent.order ↔ ∃ block ∈ cache.blocks, block.index = index := by
  obtain ⟨blocks, hperm, hindices, -⟩ := h.order
  rw [← hindices, List.mem_map]
  exact exists_congr fun block => and_congr_left fun _ => hperm.mem_iff

/-- A block is found if its number is in the list. -/
theorem isSome_find?_iff (h : Arranges policy cache recent) (index : Nat) :
    (cache.find? index).isSome ↔ index ∈ recent.order := by
  rw [h.mem_order_iff, MemoryCache.find?, List.find?_isSome]
  simp

/-- The first time that the size is told, it is remembered on both sides. -/
theorem remember (h : Arranges policy cache recent) (hnone : cache.rememberedSize = none)
    (total : Nat) :
    Arranges policy { cache with rememberedSize := some total }
      { recent with rememberedSize := some total } where
  size := rfl
  order := h.order
  nodup := h.nodup
  room := h.room
  stamps := h.stamps
  clock := h.clock
  whole block hblock := by
    obtain ⟨_, hsome, -⟩ := h.whole block hblock
    rw [hnone] at hsome
    cases hsome

/-- That a block is wanted changes nothing by itself. -/
theorem want (h : Arranges policy cache recent) : Arranges policy cache recent.want :=
  { h with clock := Nat.le_succ_of_le h.clock }

/-- A use of a kept block gives it the latest stamp and brings it to the front. -/
theorem use (h : Arranges policy cache recent) (hmem : index ∈ recent.order)
    (hclock : cache.clock < recent.accesses) :
    Arranges policy (cache.touch index) (recent.use index) where
  size := h.size
  order := by
    obtain ⟨blocks, hperm, hindices, hstamps⟩ := h.order
    have hnodup := h.nodup
    rw [← hindices] at hmem hnodup
    obtain ⟨used, hused, rfl⟩ := List.mem_map.mp hmem
    obtain ⟨front, back, rfl⟩ := List.append_of_mem hused
    have hfirst : used.index ∉ front.map (·.index) := by
      rw [List.map_append, List.map_cons, List.nodup_append] at hnodup
      exact fun hin => hnodup.2.2 _ hin _ List.mem_cons_self rfl
    have hothers : (front ++ back).Sublist (front ++ used :: back) :=
      .append_left (List.sublist_cons_self used back) front
    refine ⟨_, MemoryCache.perm_touch hperm hnodup, ?_, .cons (fun block hblock => ?_)
      (hstamps.sublist hothers)⟩
    · rw [List.map_append, List.map_cons] at hindices
      rw [RecentBlocks.use, ← hindices, List.erase_append_right _ hfirst, List.erase_cons_head,
        List.map_cons, List.map_append]
    · exact Nat.lt_succ_of_le (h.stamps block (hperm.mem_iff.mp (hothers.subset hblock)))
  nodup := List.nodup_cons.mpr ⟨h.nodup.not_mem_erase, h.nodup.erase index⟩
  room := by
    have hroom := h.room
    rw [RecentBlocks.use, List.length_cons, List.length_erase_of_mem hmem]
    have := List.length_pos_of_mem hmem
    omega
  stamps touched htouched := by
    obtain ⟨old, hold, rfl⟩ := List.mem_map.mp htouched
    have hstamp := h.stamps old hold
    split
    · exact Nat.le_refl _
    · exact Nat.le_succ_of_le hstamp
  clock := hclock
  whole touched htouched := by
    obtain ⟨old, hold, hindex, hdata⟩ := MemoryCache.exists_of_mem_touch htouched
    rw [hindex, hdata]
    exact h.whole old hold

/-- A new block gets the latest stamp and comes to the front.  If there are too many, the block
with the least stamp goes, which is the last of the list. -/
theorem push (h : Arranges policy cache recent) (hnew : index ∉ recent.order)
    (hclock : cache.clock < recent.accesses) {total : Nat} {data : Bytes}
    (hsize : cache.rememberedSize = some total)
    (hwhole : (MemoryCache.grid policy total).width index ≤ data.length) :
    Arranges policy (cache.insert policy.effectiveCapacity index data)
      (recent.push policy.effectiveCapacity index) where
  size := h.size
  order := by
    obtain ⟨blocks, hperm, hindices, hstamps⟩ := h.order
    have hnewest {kept : List KeptBlock} (hkept : kept.Sublist blocks) :
        ∀ block ∈ kept, block.stamp < cache.clock + 1 := fun block hblock =>
      Nat.lt_succ_of_le (h.stamps block (hperm.mem_iff.mp (hkept.subset hblock)))
    rw [MemoryCache.insert, RecentBlocks.push]
    dsimp only
    rw [h.length_eq, List.length_cons]
    by_cases hfull : policy.effectiveCapacity ≤ recent.order.length
    · rw [if_pos hfull, if_pos (Nat.lt_succ_of_le hfull)]
      have hsome : blocks ≠ [] := by
        rintro rfl
        rw [← hindices, MemoryPolicy.effectiveCapacity] at hfull
        simp at hfull
      obtain ⟨front, last, rfl⟩ : ∃ front last, blocks = front ++ [last] :=
        ⟨_, _, (List.dropLast_concat_getLast hsome).symm⟩
      have hnodup := h.nodup
      rw [← hindices] at hnodup
      refine ⟨_ :: front, (MemoryCache.perm_evict hperm hstamps hnodup).cons _, ?_, ?_⟩
      · rw [← hindices, List.map_append, List.map_singleton, ← List.cons_append,
          List.dropLast_concat, List.map_cons]
      · have hfront : front.Sublist (front ++ [last]) := List.sublist_append_left _ _
        exact .cons (hnewest hfront) (hstamps.sublist hfront)
    · rw [if_neg hfull, if_neg (by omega)]
      refine ⟨_ :: blocks, hperm.cons _, ?_, .cons (hnewest (.refl _)) hstamps⟩
      rw [← hindices, List.map_cons]
  nodup := by
    have hnodup : (index :: recent.order).Nodup := List.nodup_cons.mpr ⟨hnew, h.nodup⟩
    rw [RecentBlocks.push]
    dsimp only
    split
    · exact hnodup.sublist (List.dropLast_sublist _)
    · exact hnodup
  room := by
    have hroom := h.room
    rw [RecentBlocks.push]
    dsimp only
    split
    · rw [List.length_dropLast]
      exact hroom
    · omega
  stamps block hblock := by
    rcases List.mem_cons.mp hblock with rfl | hold
    · exact Nat.le_refl _
    · refine Nat.le_succ_of_le (h.stamps block ?_)
      split at hold
      · exact MemoryCache.mem_of_mem_evict hold
      · exact hold
  clock := hclock
  whole block hblock := by
    rcases MemoryCache.mem_insert hblock with ⟨hindex, hdata⟩ | hold
    · rw [hindex, hdata]
      exact ⟨total, hsize, hwhole⟩
    · exact h.whole block hold

end Arranges

/-! ### Side by side -/

variable {σ : Type} {inner : Source σ} {policy : MemoryPolicy} {capacity total index : Nat}
  {grid : BlockGrid} {cache : MemoryCache} {recent : RecentBlocks} {s : σ}

theorem access_of_mem (h : index ∈ recent.order) :
    access capacity inner grid index (recent, s) = (true, (recent.want.use index, s)) := by
  simp [access, want, h]

theorem access_of_short (h : index ∉ recent.order)
    (hshort : (inner.readAt (grid.start index) (grid.width index) s).1.length < grid.width index) :
    access capacity inner grid index (recent, s) =
      (false, (recent.want, (inner.readAt (grid.start index) (grid.width index) s).2)) := by
  simp [access, want, h, hshort]

theorem access_of_whole (h : index ∉ recent.order)
    (hwhole : grid.width index ≤ (inner.readAt (grid.start index) (grid.width index) s).1.length) :
    access capacity inner grid index (recent, s) =
      (true, (recent.want.push capacity index,
        (inner.readAt (grid.start index) (grid.width index) s).2)) := by
  simp [access, want, h, Nat.not_lt.mpr hwhole]

/-- The cache and the list stand in front of the same state of the source. -/
structure Paired (policy : MemoryPolicy) (s : MemoryCache × σ) (t : RecentBlocks × σ) : Prop where
  arranges : Arranges policy s.1 t.1
  inner : s.2 = t.2

/-- A block is fetched as it is wanted. -/
theorem paired_access (h : Arranges policy cache recent)
    (hsize : cache.rememberedSize = some total)
    (hwidth : 0 < (MemoryCache.grid policy total).width index) (inner : Source σ) (s : σ) :
    let fetched := MemoryCache.fetch policy.effectiveCapacity inner (MemoryCache.grid policy total)
      index (cache, s)
    let found := access policy.effectiveCapacity inner (MemoryCache.grid policy total) index
      (recent, s)
    Paired policy fetched.2 found.2 ∧ fetched.2.1.rememberedSize = some total ∧
      (found.1 = true ↔ (MemoryCache.grid policy total).width index ≤ fetched.1.length) := by
  have hclock : cache.clock < recent.want.accesses := Nat.lt_succ_of_le h.clock
  by_cases hmem : index ∈ recent.order
  · obtain ⟨block, hfound⟩ := Option.isSome_iff_exists.mp ((h.isSome_find?_iff index).mpr hmem)
    have hindex : block.index = index := by simpa using List.find?_some hfound
    obtain ⟨_, hremembered, hwhole⟩ := h.whole block (List.mem_of_find?_eq_some hfound)
    obtain rfl := Option.some.inj (hsize.symm.trans hremembered)
    rw [MemoryCache.fetch_of_kept hfound, access_of_mem hmem]
    exact ⟨⟨h.want.use hmem hclock, rfl⟩, hsize, iff_of_true rfl (hindex ▸ hwhole)⟩
  · have hfree : cache.find? index = none := by
      rw [← Option.not_isSome_iff_eq_none, h.isSome_find?_iff]
      exact hmem
    by_cases hshort : (inner.readAt ((MemoryCache.grid policy total).start index)
        ((MemoryCache.grid policy total).width index) s).1.length <
        (MemoryCache.grid policy total).width index
    · rw [MemoryCache.fetch_of_short hfree hshort, access_of_short hmem hshort]
      exact ⟨⟨h.want, rfl⟩, hsize, iff_of_false Bool.false_ne_true (Nat.not_le.mpr hshort)⟩
    · have hwhole := Nat.not_lt.mp hshort
      rw [MemoryCache.fetch_of_whole hfree hwidth hwhole, access_of_whole hmem hwhole]
      exact ⟨⟨h.want.push hmem hclock hsize hwhole, rfl⟩, hsize, iff_of_true rfl hwhole⟩

/-- Blocks of a read are put together as they are wanted.  By induction on their number: both sides
go on behind a block that is there in full, which contributes something to the read, and both stop
behind any other. -/
theorem paired_accessAll {offset stop : Nat} (inner : Source σ) (hoffset : offset < stop)
    (hstop : stop ≤ total) (count : Nat) {first : Nat}
    (hbegin : offset < (MemoryCache.grid policy total).start (first + 1))
    (hinside : ∀ k < count, (MemoryCache.grid policy total).start (first + k) < stop)
    {s : MemoryCache × σ} {t : RecentBlocks × σ} (h : Paired policy s t)
    (hsize : s.1.rememberedSize = some total) :
    Paired policy
      ((MemoryCache.grid policy total).collect
        (MemoryCache.fetch policy.effectiveCapacity inner (MemoryCache.grid policy total)) offset
        stop count first s).2
      (accessAll policy.effectiveCapacity inner (MemoryCache.grid policy total)
        (List.range' first count) t).2 := by
  induction count generalizing first s t with
  | zero => exact h
  | succ count ih =>
    obtain ⟨cache, x⟩ := s
    obtain ⟨recent, y⟩ := t
    obtain rfl : x = y := h.inner
    have hblock := MemoryCache.grid_blockSize_ne_zero policy total
    have hstart : (MemoryCache.grid policy total).start first < stop :=
      hinside 0 (Nat.zero_lt_succ count)
    have hwidth : 0 < (MemoryCache.grid policy total).width first :=
      Nat.lt_min.mpr ⟨Nat.pos_of_ne_zero hblock,
        Nat.sub_pos_of_lt (Nat.lt_of_lt_of_le hstart hstop)⟩
    obtain ⟨hpaired, hremembered, hfull⟩ := paired_access h.arranges hsize hwidth inner x
    rw [List.range'_succ, accessAll, BlockGrid.collect, run_bind, run_bind]
    generalize MemoryCache.fetch policy.effectiveCapacity inner (MemoryCache.grid policy total) first
      (cache, x) = fetched at hpaired hremembered hfull ⊢
    generalize access policy.effectiveCapacity inner (MemoryCache.grid policy total) first
      (recent, x) = found at hpaired hfull ⊢
    by_cases hwhole : (MemoryCache.grid policy total).width first ≤ fetched.1.length
    · have hpart := BlockGrid.part_ne_nil hblock hoffset hstop hstart hbegin hwhole
      rw [if_neg hpart, if_neg (Nat.not_lt.mpr hwhole), if_pos (hfull.mpr hwhole)]
      have hbegin' := Nat.lt_of_lt_of_le hbegin
        ((MemoryCache.grid policy total).start_mono (Nat.le_succ (first + 1)))
      exact ih hbegin' (BlockGrid.inside_succ hinside) hpaired hremembered
    · rw [if_neg fun htrue => hwhole (hfull.mp htrue), if_pos (Nat.not_le.mp hwhole), run_ite]
      split
      · exact hpaired
      · exact hpaired

/-- The size is told and remembered on both sides. -/
theorem paired_size (inner : Source σ) {s : MemoryCache × σ} {t : RecentBlocks × σ}
    (h : Paired policy s t) :
    (MemoryCache.size inner s).1 = (size inner t).1 ∧
      Paired policy (MemoryCache.size inner s).2 (size inner t).2 := by
  obtain ⟨cache, x⟩ := s
  obtain ⟨recent, y⟩ := t
  obtain ⟨harranges, rfl⟩ := h
  have hsame : cache.rememberedSize = recent.rememberedSize := harranges.size
  cases hremembered : cache.rememberedSize with
  | some total =>
    rw [hremembered] at hsame
    simpa [MemoryCache.size, size, hremembered, ← hsame] using ⟨harranges, rfl⟩
  | none =>
    rw [hremembered] at hsame
    simpa [MemoryCache.size, size, hremembered, ← hsame] using
      ⟨harranges.remember hremembered _, rfl⟩

/-- **A read of the cache is a read of the list.** -/
theorem paired_readAt (inner : Source σ) (offset len : Nat) {s : MemoryCache × σ}
    {t : RecentBlocks × σ} (h : Paired policy s t) :
    Paired policy (MemoryCache.readAt policy inner offset len s).2
      (readAt policy inner offset len t).2 := by
  obtain ⟨htotal, hpaired⟩ := paired_size inner h
  have hremembered := MemoryCache.remembered_size inner s
  rw [MemoryCache.readAt_eq_readInside, readAt, run_bind, run_bind, ← htotal]
  generalize (MemoryCache.size inner s).1 = total at hremembered ⊢
  rw [MemoryCache.readInside]
  by_cases hnothing : total ≤ offset ∨ len = 0
  · rw [if_pos hnothing, MemoryCache.touched_eq_nil policy hnothing, List.length_nil,
      if_neg (Nat.not_lt_zero _)]
    exact hpaired
  · rw [if_neg hnothing, MemoryCache.touched_eq_range' policy hnothing, List.length_range', run_ite,
      run_ite]
    by_cases hmany : policy.effectiveCapacity < (MemoryCache.grid policy total).span offset
        (min (offset + len) total)
    · rw [if_pos hmany, if_pos (Nat.le_of_lt_succ hmany)]
      exact ⟨hpaired.arranges, congrArg (fun x => (inner.readAt _ _ x).2) hpaired.inner⟩
    · have hoffset : offset < min (offset + len) total := by omega
      have hblock := MemoryCache.grid_blockSize_ne_zero policy total
      rw [if_neg hmany, if_neg fun hle => hmany (Nat.lt_succ_of_le hle)]
      exact paired_accessAll inner hoffset (Nat.min_le_right _ _) _
        ((MemoryCache.grid policy total).lt_start_indexOf_succ hblock offset)
        (fun _ hk => (MemoryCache.grid policy total).start_lt_of_read hoffset hk) hpaired hremembered

/-- Several reads of the cache are reads of the list. -/
theorem paired_readAll (inner : Source σ) (reads : List (Nat × Nat)) {s : MemoryCache × σ}
    {t : RecentBlocks × σ} (h : Paired policy s t) :
    Paired policy ((inner.memoryCached policy).readAll reads s).2
      (readAll policy inner reads t).2 := by
  induction reads generalizing s t with
  | nil => exact h
  | cons read reads ih => exact ih (paired_readAt inner read.1 read.2 h)

end RecentBlocks

end PspBoot
