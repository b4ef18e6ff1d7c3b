import PspBoot.Proofs.BlockStore.DataFile
import PspBoot.Proofs.Source.BoundedCaches
import PspBoot.Proofs.Source.Call
import PspBoot.Proofs.Source.Faltering

/-!
# Sources that answer too much

A read ought to deliver no more bytes than were asked for, and none from behind the end of the
source.  Behind retries that is always so: what is too much is cut off.  A cache keeps to it only as
far as the source does.  Reads past a cache in memory are passed on as they are answered.  And where
blocks are put together, a block that is longer than the grid says is cut off at the end of the read
only, so it spills over into the room of the next one (`BlockGrid.Spills`).
-/

namespace PspBoot

variable {σ : Type}

/-! ### Whatever is done with a source -/

/-- An operation of a source. -/
inductive Operation where
  | ask (call : Call)
  | hasEntry (name : String)
  | lastFailure
  | failureCount
deriving Repr, DecidableEq

namespace Source

/-- The state behind an operation. -/
def after (source : Source σ) (s : σ) : Operation → σ
  | .ask call => (source.ask call s).2
  | .hasEntry name => (source.hasEntry name s).2
  | .lastFailure => (source.lastFailure s).2
  | .failureCount => (source.failureCount s).2

/-- The state behind a sequence of operations. -/
def afterAll (source : Source σ) (operations : List Operation) (s : σ) : σ :=
  operations.foldl source.after s

theorem afterAll_append (source : Source σ) (operations : List Operation) (operation : Operation)
    (s : σ) :
    source.afterAll (operations ++ [operation]) s =
      source.after (source.afterAll operations s) operation :=
  List.foldl_append

/-- Whatever is done with the source, a read from its end on delivers nothing. -/
def NothingBehind (source : Source σ) (s : σ) : Prop :=
  ∀ operations offset len,
    let t := source.afterAll operations s
    (source.size t).1 ≤ offset → (source.readAt offset len t).1 = []

/-- Whatever is done with the source, a read delivers no more than was asked for, and nothing from
the end of the source on. -/
structure KeepsBounds (source : Source σ) (s : σ) : Prop where
  length : ∀ operations offset len,
    (source.readAt offset len (source.afterAll operations s)).1.length ≤ len
  behind : source.NothingBehind s

/-- No read delivers more than was asked for, whatever the state is. -/
def Modest (source : Source σ) : Prop :=
  ∀ offset len s, (source.readAt offset len s).1.length ≤ len

end Source

/-! ### Assembly -/

namespace BlockGrid

variable {grid : BlockGrid} {fetch : Nat → StateM σ Bytes} {offset stop index : Nat} {s : σ}

/-- A block is longer than the grid says, and something is delivered of the next one as well. -/
def Spills (grid : BlockGrid) (fetch : Nat → StateM σ Bytes) (index : Nat) (s : σ) : Prop :=
  grid.start (index + 1) < grid.total ∧ grid.width index < (fetch index s).1.length ∧
    (fetch (index + 1) (fetch index s).2).1 ≠ []

/-- **Where no block spills, no more is put together than the window has room for.** -/
theorem length_collect_le {V : σ → Prop} (hstop : stop ≤ grid.total)
    (hkeep : ∀ index s, grid.start index < grid.total → V s → V (fetch index s).2)
    (hnone : ∀ index s, V s → ¬grid.Spills fetch index s) (count : Nat)
    (hinside : ∀ k < count, grid.start (index + k) < stop) (hs : V s) :
    (grid.collect fetch offset stop count index s).1.length ≤
      stop - max offset (grid.start index) := by
  -- By induction on the blocks: one that is too long ends the assembly, since it would spill.
  induction count generalizing index s with
  | zero => exact Nat.zero_le _
  | succ count ih =>
    have hstart : grid.start index < grid.total :=
      Nat.lt_of_lt_of_le (hinside 0 (Nat.zero_lt_succ count)) hstop
    have hnext := hkeep index s hstart hs
    have hspill := hnone index s hs
    rw [Spills] at hspill
    rw [collect, run_bind]
    generalize fetch index s = fetched at hnext hspill ⊢
    obtain ⟨block, t⟩ := fetched
    have hwindow := grid.length_part_le_window index offset stop block
    dsimp only at hnext hspill ⊢
    rw [run_ite, run_ite]
    split
    · exact Nat.zero_le _
    · split
      · exact hwindow
      · rw [run_bind, run_pure]
        dsimp only
        rw [List.length_append]
        by_cases hlong : grid.width index < block.length
        · have hrest : (grid.collect fetch offset stop count (index + 1) t).1 = [] := by
            cases count with
            | zero => rfl
            | succ count =>
              have hinside' := hinside 1 (Nat.succ_lt_succ (Nat.zero_lt_succ count))
              refine collect_of_nil _ (Decidable.byContradiction fun hsome => hspill ?_)
              exact ⟨Nat.lt_of_lt_of_le hinside' hstop, hlong, hsome⟩
          rw [hrest]
          exact hwindow
        · have hblock : block.length ≤ grid.blockSize :=
            Nat.le_trans (Nat.not_lt.mp hlong) (grid.width_le index)
          have hpart := grid.length_part_le_room index offset stop hblock
          have hrest := ih (inside_succ hinside) hnext
          rw [start_succ] at hpart hrest
          omega

/-- From the block in which a read begins, no more is put together than is asked for. -/
theorem length_window_le {V : σ → Prop} (hoffset : offset < stop) (hstop : stop ≤ grid.total)
    (hkeep : ∀ index s, grid.start index < grid.total → V s → V (fetch index s).2)
    (hnone : ∀ index s, V s → ¬grid.Spills fetch index s) (hs : V s) :
    (grid.collect fetch offset stop (grid.indexOf (stop - 1) - grid.indexOf offset + 1)
      (grid.indexOf offset) s).1.length ≤ stop - offset := by
  have hinside (k : Nat) (hk : k < grid.indexOf (stop - 1) - grid.indexOf offset + 1) :=
    grid.start_lt_of_read hoffset hk
  refine Nat.le_trans (length_collect_le hstop hkeep hnone _ hinside hs) (Nat.le_of_eq ?_)
  rw [Nat.max_eq_left (grid.start_indexOf_le offset)]

/-- **Where a block spills, a read of it and of one byte behind it delivers a byte too many.** -/
theorem length_collect_of_spills (h : grid.Spills fetch index s) :
    (grid.collect fetch (grid.start index) (grid.start (index + 1) + 1) 2 index s).1.length =
      grid.blockSize + 2 := by
  obtain ⟨hinside, hlong, hsome⟩ := h
  have hnext := grid.start_succ index
  have hwidth : grid.width index = grid.blockSize := by
    rw [width]
    omega
  rw [collect, run_bind]
  generalize fetch index s = fetched at hlong hsome ⊢
  obtain ⟨block, t⟩ := fetched
  dsimp only at hlong hsome ⊢
  have hpart : (grid.part index (grid.start index) (grid.start (index + 1) + 1) block).length =
      grid.blockSize + 1 := by
    rw [part, List.length_drop, List.length_take]
    omega
  have hone : (grid.part (index + 1) (grid.start index) (grid.start (index + 1) + 1)
      (fetch (index + 1) t).1).length = 1 := by
    have hpos := List.length_pos_iff.mpr hsome
    rw [part, List.length_drop, List.length_take]
    omega
  rw [run_ite, if_neg (List.ne_nil_of_length_pos (by omega)), run_ite, if_neg (by omega), run_bind,
    collect_one, run_pure]
  dsimp only
  rw [List.length_append, hpart, hone]

/-- That read goes through two blocks. -/
theorem span_of_spills (hsize : grid.blockSize ≠ 0) (h : grid.Spills fetch index s) :
    min (grid.start index + (grid.blockSize + 1)) grid.total = grid.start (index + 1) + 1 ∧
      grid.indexOf (grid.start (index + 1) + 1 - 1) - grid.indexOf (grid.start index) = 1 := by
  have hnext := grid.start_succ index
  constructor
  · rw [← Nat.add_assoc, ← hnext]
    exact Nat.min_eq_left h.1
  · rw [Nat.add_sub_cancel, grid.indexOf_start hsize, grid.indexOf_start hsize,
      Nat.add_sub_cancel_left]

/-- A block that is no longer than blocks are does not spill. -/
theorem not_spills (h : (fetch index s).1.length ≤ grid.blockSize) :
    ¬grid.Spills fetch index s := by
  rintro ⟨hinside, hlong, -⟩
  rw [start_succ] at hinside
  rw [width] at hlong
  omega

end BlockGrid

/-! ### Retries -/

/-- What is too much is cut off. -/
theorem Retrying.modest (policy : RetryPolicy) (inner : Source σ) :
    (inner.retrying policy).Modest :=
  fun _ len _ => List.length_take_le len _

/-- **Behind retries every read keeps to the bounds**, whatever the source answers. -/
theorem Retrying.keepsBounds (policy : RetryPolicy) (inner : Source σ) (s : σ) :
    (inner.retrying policy).KeepsBounds s where
  length _ offset len := modest policy inner offset len _
  behind operations offset len := by
    intro t hbehind
    have hnothing (attempts : Nat) :
        (readOn inner (size policy inner t).1 offset len attempts [] (size policy inner t).2).1 =
          [] := by
      cases attempts with
      | zero => rfl
      | succ attempts => rw [readOn, if_pos (.inr hbehind), run_pure]
    change List.take len (readOn inner (size policy inner t).1 offset len policy.attempts []
      (size policy inner t).2).1 = []
    rw [hnothing, List.take_nil]

/-! ### Memory caches -/

namespace MemoryCache

variable {policy : MemoryPolicy} {inner : Source σ} {s t : MemoryCache × σ}

/-- A block spills over into the next one, and both are read by blocks together. -/
def Spills (policy : MemoryPolicy) (inner : Source σ) (t : MemoryCache × σ) : Prop :=
  let told := size inner t
  2 ≤ policy.effectiveCapacity ∧ ∃ index,
    (grid policy told.1).Spills (fetch policy.effectiveCapacity inner (grid policy told.1)) index
      told.2

/-- A read past the cache is answered with more than was asked for. -/
def Overflows (policy : MemoryPolicy) (inner : Source σ) (t : MemoryCache × σ) : Prop :=
  let told := size inner t
  ∃ offset len, offset + len ≤ told.1 ∧
    policy.effectiveCapacity ≤
      (grid policy told.1).indexOf (offset + len - 1) - (grid policy told.1).indexOf offset ∧
    len < (inner.readAt offset len told.2.2).1.length

theorem run_readAt (policy : MemoryPolicy) (inner : Source σ) (offset len : Nat)
    (t : MemoryCache × σ) :
    readAt policy inner offset len t =
      readInside policy inner offset len (size inner t).1 (size inner t).2 := rfl

/-- A read of a few blocks is put together from them. -/
theorem readInside_of_few {offset len total : Nat} (hoffset : offset < total) (hlen : len ≠ 0)
    (hfew : (grid policy total).indexOf (min (offset + len) total - 1) -
      (grid policy total).indexOf offset < policy.effectiveCapacity) :
    readInside policy inner offset len total =
      (grid policy total).collect (fetch policy.effectiveCapacity inner (grid policy total)) offset
        (min (offset + len) total)
        ((grid policy total).indexOf (min (offset + len) total - 1) -
          (grid policy total).indexOf offset + 1)
        ((grid policy total).indexOf offset) := by
  rw [readInside, if_neg (by omega)]
  exact if_neg (Nat.not_le.mpr hfew)

/-- A read of more is passed on. -/
theorem readInside_of_many {offset len total : Nat} (hoffset : offset < total) (hlen : len ≠ 0)
    (hmany : policy.effectiveCapacity ≤ (grid policy total).indexOf (min (offset + len) total - 1) -
      (grid policy total).indexOf offset) :
    readInside policy inner offset len total =
      Focus.second.lift (inner.readAt offset (min (offset + len) total - offset)) := by
  rw [readInside, if_neg (by omega)]
  exact if_pos hmany

/-- A read of the first byte of a block is a fetch of the block. -/
theorem run_readAt_start {total index : Nat} (hsize : t.1.rememberedSize = some total)
    (hinside : (grid policy total).start index < total) :
    (readAt policy inner ((grid policy total).start index) 1 t).2 =
      (fetch policy.effectiveCapacity inner (grid policy total) index t).2 := by
  have hstop : min ((grid policy total).start index + 1) total =
      (grid policy total).start index + 1 := Nat.min_eq_left hinside
  have hindex := (grid policy total).indexOf_start (grid_blockSize_ne_zero policy total) index
  have hcapacity : 0 < policy.effectiveCapacity := Nat.le_max_right _ _
  rw [run_readAt, run_size_of_remembered inner hsize]
  dsimp only
  rw [readInside_of_few hinside Nat.one_ne_zero, hstop, Nat.add_sub_cancel, hindex, Nat.sub_self,
    BlockGrid.collect_one]
  rw [hstop, Nat.add_sub_cancel, Nat.sub_self]
  exact hcapacity

/-- A state that is reached, and in which the size is known. -/
def Reached (policy : MemoryPolicy) (inner : Source σ) (s : MemoryCache × σ) (total : Nat)
    (t : MemoryCache × σ) : Prop :=
  t.1.rememberedSize = some total ∧
    ∃ operations, (inner.memoryCached policy).afterAll operations s = t

/-- When the size has been asked for, it is known. -/
theorem reached_size (policy : MemoryPolicy) (inner : Source σ) (s : MemoryCache × σ)
    (operations : List Operation) :
    let t := (inner.memoryCached policy).afterAll operations s
    Reached policy inner s (size inner t).1 (size inner t).2 := by
  intro t
  refine ⟨remembered_size inner t, operations ++ [.ask .size], ?_⟩
  rw [Source.afterAll_append]
  rfl

/-- The state behind a fetch is reached by a read of one byte. -/
theorem Reached.fetch {total index : Nat} (h : Reached policy inner s total t)
    (hinside : (grid policy total).start index < total) :
    Reached policy inner s total
      (fetch policy.effectiveCapacity inner (grid policy total) index t).2 := by
  obtain ⟨hsize, operations, hrun⟩ := h
  refine ⟨?_, operations ++ [.ask (.readAt ((grid policy total).start index) 1)], ?_⟩
  · exact (ensures_fetch_remembered policy.effectiveCapacity inner (grid policy total)
      (some total) index t hsize).valid
  · rw [Source.afterAll_append, hrun, ← run_readAt_start hsize hinside]
    rfl

/-- Nothing is read from the end of the size on that is told. -/
theorem nothingBehind (policy : MemoryPolicy) (inner : Source σ) (s : MemoryCache × σ) :
    (inner.memoryCached policy).NothingBehind s := by
  intro operations offset len t hbehind
  change (readAt policy inner offset len t).1 = []
  rw [run_readAt, readInside, if_pos (.inl hbehind)]
  rfl

/-- A read of a block that spills, and of one byte behind it, is too long. -/
theorem exists_readAt_of_spills (h : Spills policy inner t) :
    ∃ offset len, len < (readAt policy inner offset len t).1.length := by
  obtain ⟨hcapacity, index, hspill⟩ := h
  have hsize := grid_blockSize_ne_zero policy (size inner t).1
  obtain ⟨hstop, hspan⟩ := BlockGrid.span_of_spills hsize hspill
  have hinside : (grid policy (size inner t).1).start index < (size inner t).1 :=
    Nat.lt_of_le_of_lt (BlockGrid.start_mono _ (Nat.le_succ index)) hspill.1
  change min _ (size inner t).1 = _ at hstop
  refine ⟨(grid policy (size inner t).1).start index,
    (grid policy (size inner t).1).blockSize + 1, ?_⟩
  rw [run_readAt, readInside_of_few hinside (Nat.succ_ne_zero _), hstop, hspan,
    BlockGrid.indexOf_start _ hsize, BlockGrid.length_collect_of_spills hspill]
  · exact Nat.lt_succ_self _
  · rw [hstop, hspan]
    exact hcapacity

/-- A read that overflows is too long. -/
theorem exists_readAt_of_overflows (h : Overflows policy inner t) :
    ∃ offset len, len < (readAt policy inner offset len t).1.length := by
  obtain ⟨offset, len, hinside, hmany, hlong⟩ := h
  have hcapacity : 0 < policy.effectiveCapacity := Nat.le_max_right _ _
  have hlen : len ≠ 0 := by
    rintro rfl
    have hle : (grid policy (size inner t).1).indexOf (offset + 0 - 1) ≤
        (grid policy (size inner t).1).indexOf offset := Nat.div_le_div_right (Nat.sub_le _ _)
    omega
  have hstop : min (offset + len) (size inner t).1 = offset + len := Nat.min_eq_left hinside
  refine ⟨offset, len, ?_⟩
  rw [run_readAt, readInside_of_many (by omega) hlen, hstop, Nat.add_sub_cancel_left]
  · exact hlong
  · rw [hstop]
    exact hmany

/-- Where nothing spills, the blocks of a read have room in it. -/
theorem length_collect_of_reached {total offset stop : Nat}
    (hnone : ∀ operations, ¬Spills policy inner ((inner.memoryCached policy).afterAll operations s))
    (hreached : Reached policy inner s total t) (hoffset : offset < stop) (hstop : stop ≤ total)
    (hfew : (grid policy total).indexOf (stop - 1) - (grid policy total).indexOf offset <
      policy.effectiveCapacity) :
    ((grid policy total).collect (fetch policy.effectiveCapacity inner (grid policy total)) offset
      stop ((grid policy total).indexOf (stop - 1) - (grid policy total).indexOf offset + 1)
      ((grid policy total).indexOf offset) t).1.length ≤ stop - offset := by
  by_cases hone : (grid policy total).indexOf (stop - 1) - (grid policy total).indexOf offset = 0
  · have hpart := (grid policy total).length_part_le_window
      ((grid policy total).indexOf offset) offset stop
      (fetch policy.effectiveCapacity inner (grid policy total)
        ((grid policy total).indexOf offset) t).1
    rw [Nat.max_eq_left ((grid policy total).start_indexOf_le offset)] at hpart
    rw [hone, BlockGrid.collect_one]
    exact hpart
  · refine BlockGrid.length_window_le (V := Reached policy inner s total) hoffset hstop
      (fun index u hinside hu => hu.fetch hinside) (fun index u hu hspill => ?_) hreached
    obtain ⟨hsize, operations, rfl⟩ := hu
    refine hnone operations ⟨by omega, index, ?_⟩
    rwa [run_size_of_remembered inner hsize]

/-- Where nothing spills and nothing overflows, no read is too long. -/
theorem length_readAt_le (hnone : ∀ operations,
      let t := (inner.memoryCached policy).afterAll operations s
      ¬Spills policy inner t ∧ ¬Overflows policy inner t)
    (operations : List Operation) (offset len : Nat) :
    (readAt policy inner offset len ((inner.memoryCached policy).afterAll operations s)).1.length ≤
      len := by
  have hover := (hnone operations).2
  have hstart := reached_size policy inner s operations
  rw [run_readAt]
  rw [Overflows] at hover
  dsimp only at hstart
  generalize size inner ((inner.memoryCached policy).afterAll operations s) = told
    at hover hstart ⊢
  obtain ⟨total, t⟩ := told
  dsimp only at hover hstart ⊢
  by_cases hoffset : total ≤ offset ∨ len = 0
  · rw [readInside, if_pos hoffset]
    exact Nat.zero_le _
  · rw [not_or, Nat.not_le] at hoffset
    obtain ⟨hoffset, hlen⟩ := hoffset
    have hstop : offset + (min (offset + len) total - offset) = min (offset + len) total := by omega
    by_cases hmany : policy.effectiveCapacity ≤
        (grid policy total).indexOf (min (offset + len) total - 1) -
          (grid policy total).indexOf offset
    · rw [readInside_of_many hoffset hlen hmany]
      have hanswer : ¬_ < (inner.readAt offset (min (offset + len) total - offset) t.2).1.length :=
        fun hlong => hover ⟨offset, _, by omega, by rwa [hstop], hlong⟩
      exact Nat.le_trans (Nat.not_lt.mp hanswer) (by omega)
    · rw [Nat.not_le] at hmany
      have hread := length_collect_of_reached (fun operations => (hnone operations).1) hstart
        (show offset < min (offset + len) total by omega) (Nat.min_le_right _ _) hmany
      rw [readInside_of_few hoffset hlen hmany]
      omega

/-- **Behind a memory cache reads keep to the bounds just if no block spills over and no read past
the cache overflows**, whatever has been done before. -/
theorem keepsBounds_iff (policy : MemoryPolicy) (inner : Source σ) (s : MemoryCache × σ) :
    (inner.memoryCached policy).KeepsBounds s ↔
      ∀ operations,
        let t := (inner.memoryCached policy).afterAll operations s
        ¬Spills policy inner t ∧ ¬Overflows policy inner t := by
  constructor
  · rintro ⟨hlength, -⟩ operations
    constructor
    · intro hspills
      obtain ⟨offset, len, hlong⟩ := exists_readAt_of_spills hspills
      exact Nat.not_le_of_lt hlong (hlength operations offset len)
    · intro hover
      obtain ⟨offset, len, hlong⟩ := exists_readAt_of_overflows hover
      exact Nat.not_le_of_lt hlong (hlength operations offset len)
  · exact fun hnone => ⟨length_readAt_le hnone, nothingBehind policy inner s⟩

/-! ### Modest sources -/

/-- No block that is kept is longer than blocks are. -/
def Trim (policy : MemoryPolicy) (t : MemoryCache × σ) : Prop :=
  ∀ block ∈ t.1.blocks, block.data.length ≤ policy.effectiveBlockSize

/-- A block is as long as blocks are, whether it has been kept or is read. -/
theorem ensures_fetch_trim (h : inner.Modest) (policy : MemoryPolicy) (total index : Nat) :
    Ensures (Trim policy) (fun _ => True)
      (fetch policy.effectiveCapacity inner (grid policy total) index)
      fun data _ => data.length ≤ policy.effectiveBlockSize := by
  intro t ht
  apply Outcome.look
  cases hfound : (Focus.first.get t).find? index with
  | some block =>
    refine ⟨fun touched htouched => ?_, id, ht block (List.mem_of_find?_eq_some hfound)⟩
    obtain ⟨old, hold, -, hdata⟩ := exists_of_mem_touch htouched
    rw [hdata]
    exact ht old hold
  | none =>
    refine Outcome.bind (Q := fun data _ => data.length ≤ policy.effectiveBlockSize)
      ⟨ht, id, ?_⟩ fun data u hu hdata => ?_
    · exact Nat.le_trans (h _ _ _) ((grid policy total).width_le index)
    · split
      · exact .same hu hdata
      · refine ⟨fun block hblock => ?_, id, hdata⟩
        rcases mem_insert hblock with ⟨-, hkept⟩ | hold
        · rw [hkept]
          exact hdata
        · exact hu block hold

theorem Trim.size (inner : Source σ) (h : Trim policy t) : Trim policy (size inner t).2 := by
  obtain ⟨⟨remembered, blocks, clock⟩, s⟩ := t
  cases remembered with
  | none | some => exact h

theorem Trim.readAt (hmodest : inner.Modest) (h : Trim policy t) (offset len : Nat) :
    Trim policy (readAt policy inner offset len t).2 := by
  have hsize := h.size inner
  rw [run_readAt, readInside]
  split
  · exact hsize
  · dsimp only
    split
    · exact hsize
    · refine (BlockGrid.ensures_collect_of (E := fun _ => True) _ (fun k _ => ?_) _ hsize).valid
      exact (ensures_fetch_trim hmodest policy _ _).imp fun _ _ _ _ => trivial

/-- Whatever is done with the cache. -/
theorem Trim.afterAll (hmodest : inner.Modest) (operations : List Operation) (h : Trim policy t) :
    Trim policy ((inner.memoryCached policy).afterAll operations t) := by
  induction operations generalizing t with
  | nil => exact h
  | cons operation operations ih =>
    refine ih ?_
    cases operation with
    | hasEntry | lastFailure | failureCount => exact h
    | ask call =>
      cases call with
      | isPresent | isDirectory => exact h
      | size => exact h.size inner
      | readAt offset len => exact h.readAt hmodest offset len

/-- **A memory cache keeps to the bounds if the source does.** -/
theorem keepsBounds_of_modest (policy : MemoryPolicy) (hmodest : inner.Modest) (s : σ) :
    (inner.memoryCached policy).KeepsBounds ({}, s) := by
  refine (keepsBounds_iff policy inner ({}, s)).mpr fun operations => ⟨?_, ?_⟩
  · rintro ⟨-, index, hspill⟩
    have hempty : Trim policy (({}, s) : MemoryCache × σ) := nofun
    have htrim := (hempty.afterAll hmodest operations).size inner
    exact BlockGrid.not_spills (ensures_fetch_trim hmodest policy _ index _ htrim).post hspill
  · rintro ⟨offset, len, -, -, hlong⟩
    exact Nat.not_le_of_lt hlong (hmodest offset len _)

end MemoryCache

end PspBoot
