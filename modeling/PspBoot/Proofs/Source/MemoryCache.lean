import PspBoot.Proofs.Source.Assembly
import PspBoot.Source.MemoryCache

/-!
# Memory caches show what they cache

A memory cache in front of a source that shows a content shows the same content, provided a read
of the source reaches as far as a block is long: the cache fetches whole blocks, and a block that
never arrives as a whole can hide the bytes at its end.

The invariant is that every kept block is the block of the content with its number, and that the
remembered size is the length of the content, or zero with an excuse.
-/

namespace PspBoot.MemoryCache

variable {σ : Type} {inner : Source σ} {content : Bytes} {reach : Nat} {V E : σ → Prop}
  {policy : MemoryPolicy}

/-- The division of a content into the blocks of a memory cache. -/
def gridOf (policy : MemoryPolicy) (content : Bytes) : BlockGrid where
  blockSize := policy.effectiveBlockSize
  total := content.length

/-- What a memory cache and the source behind it have in common with a content. -/
structure Mirrors (policy : MemoryPolicy) (content : Bytes) (V E : σ → Prop)
    (state : MemoryCache × σ) : Prop where
  inner : V state.2
  size : ∀ n, state.1.rememberedSize = some n → n = content.length ∨ n = 0 ∧ E state.2
  blocks : ∀ block ∈ state.1.blocks,
    block.data = (gridOf policy content).blockOf content block.index

/-- A new cache has nothing to be wrong about. -/
theorem Mirrors.initial {s : σ} (h : V s) : Mirrors policy content V E (({} : MemoryCache), s) where
  inner := h
  size n hn := by simp at hn
  blocks block hblock := by simp at hblock

/-- An action of the source behind a cache leaves the cache as it is. -/
theorem ensures_second {α : Type} {action : StateM σ α} {Q : α → σ → Prop}
    (h : Ensures V E action Q) :
    Ensures (Mirrors policy content V E) (fun x => E x.2) (Focus.second.lift action)
      fun a x => Q a x.2 := by
  intro state hmirrors
  have hinner := h state.2 hmirrors.inner
  constructor
  · constructor
    · exact hinner.valid
    · intro n hn
      exact (hmirrors.size n hn).imp_right fun hzero => ⟨hzero.1, hinner.excused hzero.2⟩
    · exact hmirrors.blocks
  · exact hinner.excused
  · exact hinner.post

/-- The cache has the size of the content, or zero with an excuse. -/
theorem ensures_size (h : Ensures V E inner.size fun n s => n = content.length ∨ n = 0 ∧ E s) :
    Ensures (Mirrors policy content V E) (fun x => E x.2) (size inner)
      fun n x => n = content.length ∨ n = 0 ∧ E x.2 := by
  intro state hmirrors
  apply Outcome.look
  cases hremembered : (Focus.first.get state).rememberedSize with
  | some n => exact .same hmirrors (hmirrors.size n hremembered)
  | none =>
    apply (ensures_second h state hmirrors).bind
    intro n x hx hn
    constructor
    · constructor
      · exact hx.inner
      · intro m hm
        obtain rfl : n = m := Option.some.inj hm
        exact hn
      · exact hx.blocks
    · exact id
    · exact hn

/-- The blocks of a cache after a use of one of them are blocks it had before. -/
theorem exists_of_mem_touch {cache : MemoryCache} {index : Nat} {block : KeptBlock}
    (h : block ∈ (cache.touch index).blocks) :
    ∃ old ∈ cache.blocks, block.index = old.index ∧ block.data = old.data := by
  obtain ⟨old, hold, heq⟩ := List.mem_map.mp h
  refine ⟨old, hold, ?_⟩
  split at heq
  · subst heq
    exact ⟨rfl, rfl⟩
  · subst heq
    exact ⟨rfl, rfl⟩

theorem mem_of_mem_evict {blocks : List KeptBlock} {block : KeptBlock}
    (h : block ∈ evict blocks) : block ∈ blocks := by
  unfold evict at h
  split at h
  · exact h
  · exact (List.mem_filter.mp h).1

/-- The blocks of a cache with one more are that one and blocks it had before. -/
theorem mem_insert {capacity : Nat} {cache : MemoryCache} {index : Nat} {data : Bytes}
    {block : KeptBlock} (h : block ∈ (cache.insert capacity index data).blocks) :
    (block.index = index ∧ block.data = data) ∨ block ∈ cache.blocks := by
  rcases List.mem_cons.mp h with rfl | h
  · exact .inl ⟨rfl, rfl⟩
  · right
    split at h
    · exact mem_of_mem_evict h
    · exact h

namespace Mirrors

variable {cache : MemoryCache} {s : σ} {index : Nat}

/-- A block that is found is the block of the content. -/
theorem data_of_find? (h : Mirrors policy content V E (cache, s)) {block : KeptBlock}
    (hfound : cache.find? index = some block) :
    block.data = (gridOf policy content).blockOf content index := by
  have hindex : block.index = index := by simpa using List.find?_some hfound
  rw [h.blocks block (List.mem_of_find?_eq_some hfound), hindex]

theorem touch (h : Mirrors policy content V E (cache, s)) (index : Nat) :
    Mirrors policy content V E (cache.touch index, s) where
  inner := h.inner
  size := h.size
  blocks touched htouched := by
    obtain ⟨old, hold, hsame, hsameData⟩ := exists_of_mem_touch htouched
    rw [hsameData, hsame]
    exact h.blocks old hold

/-- The block of the content may be kept. -/
theorem insert (h : Mirrors policy content V E (cache, s)) (capacity index : Nat) :
    Mirrors policy content V E
      (cache.insert capacity index ((gridOf policy content).blockOf content index), s) where
  inner := h.inner
  size := h.size
  blocks block hblock := by
    rcases mem_insert hblock with ⟨hindex, hkept⟩ | hold
    · rw [hindex, hkept]
    · exact h.blocks block hold

end Mirrors

/-- A block from the cache is the block of the content, and so is one that has just been read, if
it is complete. -/
theorem ensures_fetch (h : ReadsFrom content reach V E inner.readAt) (capacity : Nat)
    (hreach : min policy.effectiveBlockSize content.length ≤ reach) (index : Nat) :
    Ensures (Mirrors policy content V E) (fun x => E x.2)
      (fetch capacity inner (gridOf policy content) index) fun data x =>
        Delivered policy.effectiveBlockSize ((gridOf policy content).blockOf content index) data
          (E x.2) := by
  have hlength : ((gridOf policy content).blockOf content index).length =
      (gridOf policy content).width index := BlockGrid.length_blockOf rfl index
  have hwidth : (gridOf policy content).width index ≤ reach := by
    have h₁ := (gridOf policy content).width_le index
    have h₂ := (gridOf policy content).width_le_total index
    exact Nat.le_trans (Nat.le_min.mpr ⟨h₁, h₂⟩) hreach
  intro state hmirrors
  apply Outcome.look
  cases hfound : (Focus.first.get state).find? index with
  | some block =>
    constructor
    · exact hmirrors.touch index
    · exact id
    · simp only [run_bind, run_pure, hmirrors.data_of_find? hfound]
      exact .whole
  | none =>
    apply (ensures_second (h _ _) state hmirrors).bind
    intro data x hx hdata
    have hwhole := hdata.eq_or (by rw [← BlockGrid.blockOf, hlength]; exact hwidth)
    have hdelivered : Delivered policy.effectiveBlockSize
        ((gridOf policy content).blockOf content index) data (E x.2) :=
      .of_eq_or hdata.isPrefix hwhole
    split
    · exact .same hx hdelivered
    · next hcomplete =>
      obtain rfl : data = (gridOf policy content).blockOf content index := by
        apply hdata.isPrefix.eq_of_length_le
        rw [← BlockGrid.blockOf, hlength]
        omega
      exact ⟨hx.insert capacity index, id, hdelivered⟩

/-- A read past the cache, from one offset up to another. -/
def readPast (inner : Source σ) (offset stop : Nat) : StateM (MemoryCache × σ) Bytes :=
  Focus.second.lift (inner.readAt offset (stop - offset))

/-- A read by blocks, from one offset up to another. -/
def readByBlocks (policy : MemoryPolicy) (inner : Source σ) (grid : BlockGrid)
    (offset stop : Nat) : StateM (MemoryCache × σ) Bytes :=
  grid.collect (fetch policy.effectiveCapacity inner grid) offset stop
    (grid.indexOf (stop - 1) - grid.indexOf offset + 1) (grid.indexOf offset)

/-- A read past the cache delivers the content. -/
theorem ensures_readPast (h : ReadsFrom content reach V E inner.readAt) {offset : Nat} (len : Nat)
    (hoffset : offset < content.length) :
    Ensures (Mirrors policy content V E) (fun x => E x.2)
      (readPast inner offset (min (offset + len) content.length)) fun data x =>
        Delivered reach (Bytes.slice content offset len) data (E x.2) := by
  have hwindow : Bytes.slice content offset (min (offset + len) content.length - offset) =
      Bytes.slice content offset len := by
    rw [← Bytes.slice_clip content offset len]
    congr 1
    omega
  have hread := h offset (min (offset + len) content.length - offset)
  rw [hwindow] at hread
  exact ensures_second hread

/-- A read by blocks delivers the content. -/
theorem ensures_readByBlocks (h : ReadsFrom content reach V E inner.readAt)
    (hreach : min policy.effectiveBlockSize content.length ≤ reach) {offset len : Nat}
    (hoffset : offset < content.length) (hlen : len ≠ 0) :
    Ensures (Mirrors policy content V E) (fun x => E x.2)
      (readByBlocks policy inner (gridOf policy content) offset
        (min (offset + len) content.length)) fun data x =>
        Delivered reach (Bytes.slice content offset len) data (E x.2) := by
  have hsize : (gridOf policy content).blockSize ≠ 0 := by
    simp only [gridOf, MemoryPolicy.effectiveBlockSize]
    omega
  have hread := (gridOf policy content).ensures_read content hsize rfl
    (fun index _ => ensures_fetch h policy.effectiveCapacity hreach index) hoffset hlen
  refine hread.imp fun data x _ hdata => .of_eq_or hdata.isPrefix (hdata.eq_or ?_)
  simp only [Bytes.length_slice, gridOf]
  omega

/-- Reads of the cache deliver the content. -/
theorem readsFrom
    (hsize : Ensures V E inner.size fun n s => n = content.length ∨ n = 0 ∧ E s)
    (hread : ReadsFrom content reach V E inner.readAt)
    (hreach : min policy.effectiveBlockSize content.length ≤ reach) :
    ReadsFrom content reach (Mirrors policy content V E) (fun x => E x.2)
      (readAt policy inner) := by
  intro offset len state hmirrors
  apply (ensures_size hsize state hmirrors).bind
  intro total x hx htotal
  rcases htotal with rfl | ⟨rfl, hexcuse⟩
  · split
    · next hnothing =>
      have hempty : Bytes.slice content offset len = [] := Bytes.slice_eq_nil.mpr (by omega)
      rw [hempty]
      exact .same hx .whole
    · next hsome =>
      have hoffset : offset < content.length := by omega
      have hlen : len ≠ 0 := by omega
      dsimp only
      split
      · exact ensures_readPast hread len hoffset x hx
      · exact ensures_readByBlocks hread hreach hoffset hlen x hx
  · rw [if_pos (.inl (Nat.zero_le offset))]
    exact .same hx (.nil hexcuse)

/-- **A memory cache shows the content of the source behind it**, as far as that source reaches,
which has to be the length of a block. -/
theorem shows (h : inner.Shows content reach V E)
    (hreach : min policy.effectiveBlockSize content.length ≤ reach) :
    (inner.memoryCached policy).Shows content reach (Mirrors policy content V E)
      (fun x => E x.2) where
  isPresent := ensures_second h.isPresent
  isDirectory := ensures_second h.isDirectory
  size := ensures_size h.size
  readAt := readsFrom h.size h.readAt hreach
  failureCount := ensures_second h.failureCount
  hasEntry name := ensures_second (h.hasEntry name)

/-- A block that is not there and comes too short is passed on and not kept. -/
theorem fetch_of_short {capacity index : Nat} {grid : BlockGrid} {cache : MemoryCache} {s : σ}
    (hfree : cache.find? index = none)
    (hshort : (inner.readAt (grid.start index) (grid.width index) s).1.length < grid.width index) :
    fetch capacity inner grid index (cache, s) =
      ((inner.readAt (grid.start index) (grid.width index) s).1,
        (cache, (inner.readAt (grid.start index) (grid.width index) s).2)) := by
  simp [fetch, hfree, hshort]

/-- The first read of a cache is empty if the bytes of the block do not reach so far. -/
theorem readAt_eq_nil {s : σ} {bound : Nat} (hsize : (inner.size s).1 = content.length)
    (hbound : bound < content.length)
    (hread : (inner.readAt ((gridOf policy content).start ((gridOf policy content).indexOf bound))
        ((gridOf policy content).width ((gridOf policy content).indexOf bound))
        (inner.size s).2).1.length ≤
      bound - (gridOf policy content).start ((gridOf policy content).indexOf bound)) :
    (readAt policy inner bound 1 (({} : MemoryCache), s)).1 = [] := by
  let cache : MemoryCache := { rememberedSize := some content.length }
  let stop := min (bound + 1) content.length
  have hrun : size inner (({} : MemoryCache), s) = (content.length, (cache, (inner.size s).2)) := by
    simp [size, cache, hsize]
  have hone : ¬policy.effectiveCapacity ≤ 0 := by
    rw [MemoryPolicy.effectiveCapacity]
    omega
  unfold readAt
  rw [run_bind, hrun]
  dsimp only
  have hstop : min (bound + 1) content.length - 1 = bound := by omega
  rw [if_neg (by omega), hstop, Nat.sub_self, if_neg hone]
  change ((gridOf policy content).collect
    (fetch policy.effectiveCapacity inner (gridOf policy content)) bound stop (0 + 1)
    ((gridOf policy content).indexOf bound) (cache, (inner.size s).2)).1 = []
  generalize hgrid : gridOf policy content = grid at hread ⊢
  generalize hindex : grid.indexOf bound = index at hread ⊢
  have hstart : grid.start index ≤ bound := hindex ▸ grid.start_indexOf_le bound
  have hwidth : bound - grid.start index < grid.width index := by
    have hsmall : grid.blockSize ≠ 0 := by
      rw [← hgrid, gridOf, MemoryPolicy.effectiveBlockSize]
      exact Nat.ne_of_gt (Nat.le_max_right _ _)
    have htotal : grid.total = content.length := by rw [← hgrid, gridOf]
    have hnext := grid.lt_start_indexOf_succ hsmall bound
    rw [hindex, BlockGrid.start_succ] at hnext
    rw [BlockGrid.width, htotal]
    omega
  have hfree : cache.find? index = none := rfl
  have hshort : (fetch policy.effectiveCapacity inner grid index
      (cache, (inner.size s).2)).1.length ≤ bound - grid.start index := by
    rw [fetch_of_short hfree (Nat.lt_of_le_of_lt hread hwidth)]
    exact hread
  rw [BlockGrid.collect_of_short (Nat.lt_of_le_of_lt hshort hwidth)]
  apply List.eq_nil_of_length_eq_zero
  have hpart := grid.length_part_le index bound stop
    (fetch policy.effectiveCapacity inner grid index (cache, (inner.size s).2)).1
  omega

/-- In particular if no read of the source gets to the end of the first block. -/
theorem readAt_eq_nil_of_lt {s : σ} {bound : Nat} (hsize : (inner.size s).1 = content.length)
    (hbound : bound < content.length) (hblock : bound < policy.effectiveBlockSize)
    (hread : ∀ offset len t, (inner.readAt offset len t).1.length ≤ bound) :
    (readAt policy inner bound 1 (({} : MemoryCache), s)).1 = [] := by
  apply readAt_eq_nil hsize hbound
  have hfirst : (gridOf policy content).indexOf bound = 0 := Nat.div_eq_of_lt hblock
  rw [hfirst, BlockGrid.start, Nat.zero_mul]
  apply hread

end PspBoot.MemoryCache
