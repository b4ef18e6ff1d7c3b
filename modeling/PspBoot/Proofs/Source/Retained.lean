import PspBoot.Proofs.BlockStore.Steady
import PspBoot.Proofs.Source.Recorded

/-!
# Blocks that a disk cache keeps

A disk cache over a source of one size reads a block of it at most once in full.  The read that
delivers the block has it stored (`keeps_readAt`), and from then on every read of the disk cache has
the stored bytes where it has bytes of the block, and does not ask the source for any of them
(`spares_readAt`).
-/

namespace PspBoot

namespace BlockGrid

variable {σ : Type} {grid : BlockGrid} {index other offset stop : Nat} {stored block : Bytes}
  {V E : σ → Prop} {fetch : Nat → StateM σ Bytes}

/-- Blocks of different numbers begin at different offsets. -/
theorem start_injective (hsize : grid.blockSize ≠ 0) (h : grid.start other = grid.start index) :
    other = index :=
  Nat.eq_of_mul_eq_mul_right (Nat.pos_of_ne_zero hsize) h

/-- What was read from an offset on has the bytes of a block where it has any of the block. -/
def Agrees (grid : BlockGrid) (index : Nat) (stored : Bytes) (offset : Nat) (data : Bytes) : Prop :=
  ∀ i < data.length, grid.Covers index (offset + i) →
    data[i]? = stored[offset + i - grid.start index]?

theorem agrees_nil : grid.Agrees index stored offset [] := by
  intro i hi
  cases hi

/-- A block contributes bytes of its own to a read. -/
theorem agrees_part (hlength : block.length ≤ grid.width other)
    (hsame : other = index → block = stored) :
    grid.Agrees index stored (max offset (grid.start other)) (grid.part other offset stop block) := by
  intro i hi hcovers
  rw [part, List.length_drop, List.length_take] at hi
  have hother : grid.Covers other (max offset (grid.start other) + i) := ⟨by omega, by omega⟩
  obtain rfl : other = index := hother.indexOf_eq.symm.trans hcovers.indexOf_eq
  rw [part, List.getElem?_drop, List.getElem?_take, if_pos (by omega), ← hsame rfl]
  congr 1
  omega

/-- What a block contributes to a read that begins in it. -/
theorem part_eq_slice {len : Nat} (hbegin : grid.start index ≤ offset)
    (hlength : stored.length ≤ grid.total - grid.start index) :
    grid.part index offset (min (offset + len) grid.total) stored =
      Bytes.slice stored (offset - grid.start index) len := by
  rw [part, List.drop_take, Bytes.slice, List.take_eq_take_iff, List.length_drop]
  omega

/-- What is read behind a part goes on where the part ends. -/
theorem agrees_append {front rest : Bytes} (hfront : grid.Agrees index stored offset front)
    (hrest : grid.Agrees index stored (offset + front.length) rest) :
    grid.Agrees index stored offset (front ++ rest) := by
  intro i hi hcovers
  rcases Nat.lt_or_ge i front.length with hless | hmore
  · rw [List.getElem?_append_left hless]
    exact hfront i hless hcovers
  · rw [List.length_append] at hi
    have hsum : offset + front.length + (i - front.length) = offset + i := by omega
    rw [List.getElem?_append_right hmore]
    have hat := hrest (i - front.length) (by omega) (hsum ▸ hcovers)
    rwa [hsum] at hat

/-- A block that is complete contributes all up to the next block, if the read goes on there. -/
theorem length_part_of_full (hstop : stop ≤ grid.total) (hfull : grid.width other ≤ block.length)
    (hlength : block.length ≤ grid.width other) (hbegin : offset < grid.start (other + 1))
    (hnext : grid.start (other + 1) < stop) :
    max offset (grid.start other) + (grid.part other offset stop block).length =
      grid.start (other + 1) := by
  have hstart := grid.start_succ other
  have hwidth : grid.width other = min grid.blockSize (grid.total - grid.start other) := rfl
  rw [part, List.length_drop, List.length_take]
  omega

/-- The blocks of a read are put together, one of which is known.  If the read begins with this
block, it has all of it that was asked for. -/
theorem ensures_collect_block (hstop : stop ≤ grid.total) (count : Nat) {first : Nat}
    (hfetch : ∀ k < count, Ensures V E (fetch (first + k)) fun block _ =>
      block.length ≤ grid.width (first + k) ∧ (first + k = index → block = stored))
    (hbegin : offset < grid.start (first + 1))
    (hinside : ∀ k < count, grid.start (first + k) < stop) :
    Ensures V E (grid.collect fetch offset stop count first) fun data _ =>
      grid.Agrees index stored (max offset (grid.start first)) data ∧
        (count ≠ 0 → first = index → grid.part index offset stop stored <+: data) := by
  induction count generalizing first with
  | zero => exact .pure fun _ _ => ⟨agrees_nil, fun hne => absurd rfl hne⟩
  | succ count ih =>
    intro s hV
    apply (hfetch 0 (Nat.zero_lt_succ count) s hV).bind
    rintro block t hVt ⟨hlength, hsame⟩
    rw [Nat.add_zero] at hlength hsame ⊢
    have hpart : grid.Agrees index stored (max offset (grid.start first))
        (grid.part first offset stop block) := agrees_part hlength hsame
    have hknown (hfirst : first = index) :
        grid.part index offset stop stored = grid.part first offset stop block := by
      rw [hsame hfirst, hfirst]
    have halone (hfirst : first = index) :
        grid.part index offset stop stored <+: grid.part first offset stop block :=
      hknown hfirst ▸ List.prefix_refl _
    by_cases hnothing : grid.part first offset stop block = []
    · rw [if_pos hnothing, ← hnothing]
      exact .same hVt ⟨hpart, fun _ => halone⟩
    rw [if_neg hnothing]
    by_cases hshort : block.length < grid.width first
    · rw [if_pos hshort]
      exact .same hVt ⟨hpart, fun _ => halone⟩
    rw [if_neg hshort]
    by_cases hlast : count = 0
    · subst hlast
      change Outcome V E _ t (grid.part first offset stop block ++ [], t)
      rw [List.append_nil]
      exact .same hVt ⟨hpart, fun _ => halone⟩
    have hstep (k : Nat) : first + 1 + k = first + (k + 1) := by omega
    have hafter : offset < grid.start (first + 1 + 1) := by
      have := grid.start_succ (first + 1)
      omega
    have hfetch' : ∀ k < count, Ensures V E (fetch (first + 1 + k)) fun block _ =>
        block.length ≤ grid.width (first + 1 + k) ∧ (first + 1 + k = index → block = stored) := by
      intro k hk
      rw [hstep]
      exact hfetch (k + 1) (Nat.succ_lt_succ hk)
    have hinside' : ∀ k < count, grid.start (first + 1 + k) < stop := by
      intro k hk
      rw [hstep]
      exact hinside (k + 1) (Nat.succ_lt_succ hk)
    apply (ih hfetch' hafter hinside' t hVt).bind
    rintro rest u hVu ⟨hagrees, -⟩
    refine .same hVu ⟨agrees_append hpart ?_, fun _ hfirst => ?_⟩
    · rw [length_part_of_full hstop (Nat.not_lt.mp hshort) hlength hbegin
        (hinside 1 (by omega))]
      rwa [Nat.max_eq_right (Nat.le_of_lt hbegin)] at hagrees
    · rw [hknown hfirst]
      exact List.prefix_append _ _

end BlockGrid

/-- A read has delivered a block in full. -/
def SourceRead.Delivers (read : SourceRead) (size index : Nat) : Prop :=
  read.offset = (BlockStore.gridFor size).start index ∧
    read.data.length = (BlockStore.gridFor size).width index

instance (read : SourceRead) (size index : Nat) : Decidable (read.Delivers size index) :=
  inferInstanceAs (Decidable (_ ∧ _))

namespace DiskCache

open BlockStore

variable {σ η : Type} {key : FilePath.Key} {inner : Source (σ × World η)}
  {W E : σ × World η → Prop} {size index : Nat} {stored : Bytes}

/-- A read with a store keeps what the fetching of every block keeps. -/
theorem ensures_readAt_of
    (hopen : ∀ s, W s → ∃ store, s.2.storage.store? key = some store ∧ store.size = size)
    (hfetch : ∀ other, (gridFor size).start other < size →
      Ensures W E (fetch key inner (gridFor size) other) fun _ _ => True) (offset len : Nat) :
    Ensures W E (readAt (some key) inner offset len) fun _ _ => True := by
  intro s hs
  obtain ⟨store, hstore, rfl⟩ := hopen s hs
  simp only [readAt, run_bind, run_store?, Option.bind_some, hstore, grid_eq]
  split
  · exact .same hs trivial
  · next hsome =>
    apply BlockGrid.ensures_collect_of _ _ s hs
    intro k hk
    apply hfetch
    have hinside := (gridFor store.size).start_lt_of_read (by omega) hk
    omega

/-- With a block that is known it has the bytes of this block. -/
theorem ensures_readAt_block
    (hopen : ∀ s, W s → ∃ store, s.2.storage.store? key = some store ∧ store.size = size)
    (hfetch : ∀ other, (gridFor size).start other < size →
      Ensures W E (fetch key inner (gridFor size) other) fun block _ =>
        block.length ≤ (gridFor size).width other ∧ (other = index → block = stored))
    (hstored : stored.length = (gridFor size).width index) (offset len : Nat) :
    Ensures W E (readAt (some key) inner offset len) fun data _ =>
      (gridFor size).Agrees index stored offset data ∧
        ((gridFor size).Covers index offset →
          Bytes.slice stored (offset - (gridFor size).start index) len <+: data) := by
  intro s hs
  obtain ⟨store, hstore, rfl⟩ := hopen s hs
  simp only [readAt, run_bind, run_store?, Option.bind_some, hstore, grid_eq]
  split
  · next hnothing =>
    refine .same hs ⟨BlockGrid.agrees_nil, fun hcovers => ?_⟩
    have hinside : offset < store.size := hcovers.lt_total
    obtain rfl : len = 0 := hnothing.resolve_left (Nat.not_le.mpr hinside)
    exact List.prefix_nil.mpr (Bytes.slice_zero _ _)
  · next hsome =>
    let grid := gridFor store.size
    have hsome : offset < min (offset + len) store.size := by omega
    have hcollect := grid.ensures_collect_block (Nat.min_le_right (offset + len) store.size) _
      (fun k hk => hfetch _
        (Nat.lt_of_lt_of_le (grid.start_lt_of_read hsome hk) (Nat.min_le_right _ _)))
      (grid.lt_start_indexOf_succ blockSize_ne_zero offset)
      fun k hk => grid.start_lt_of_read hsome hk
    apply (hcollect s hs).imp
    rintro data t - ⟨hagrees, hpart⟩
    rw [Nat.max_eq_left (grid.start_indexOf_le offset)] at hagrees
    refine ⟨hagrees, fun hcovers => ?_⟩
    have hbegins := hpart (Nat.succ_ne_zero _) hcovers.indexOf_eq
    have hlength : stored.length ≤ grid.total - grid.start index :=
      Nat.le_trans (Nat.le_of_eq hstored) (Nat.min_le_right _ _)
    have hpiece : grid.part index offset (min (offset + len) store.size) stored = _ :=
      BlockGrid.part_eq_slice hcovers.1 hlength
    rwa [hpiece] at hbegins

/-! ### Reads with a record -/

variable {entry : CacheEntry} {A : List SourceRead → Ledger → Prop} {V : σ × η → Prop}

/-- An entry is kept as a ledger says which goes with the record of the reads. -/
def Accounts (V : σ × η → Prop) (entry : CacheEntry) (A : List SourceRead → Ledger → Prop)
    (s : (List SourceRead × σ) × World η) : Prop :=
  V (s.1.2, s.2.host) ∧ s.2.storage.Kept entry (A s.1.1)

/-- A read is put on record with its answer. -/
theorem run_recorded (inner : Source (σ × World η)) (log : List SourceRead) (state : σ)
    (world : World η) (offset len : Nat) :
    let read := inner.readAt offset len (state, world)
    (inner.recorded.within logged).readAt offset len ((log, state), world) =
      (read.1, ((log ++ [⟨offset, len, read.1⟩], read.2.1), read.2.2)) := rfl

/-- To fetch a block is to find it, or to read it and to store it if it is complete.  Either is a
matter of ledgers. -/
theorem ensures_fetch_accounts {Q : Bytes → Prop} (h : Sized inner size V)
    (hfound : ∀ {log ledger data}, A log ledger → (ledger.loadBlock index).1 = some data →
      A log (ledger.loadBlock index).2 ∧ Q data)
    (hmissed : ∀ {log ledger data}, A log ledger → (ledger.loadBlock index).1 = none →
      data.length ≤ (gridFor size).width index →
        let read : SourceRead :=
          ⟨(gridFor size).start index, (gridFor size).width index, data⟩
        let missed := (ledger.loadBlock index).2
        A (log ++ [read])
            (if data.length = (gridFor size).width index then missed.saveBlock index data
            else missed) ∧ Q data) :
    Ensures (Accounts V entry A) (fun _ => True)
      (fetch entry.key (inner.recorded.within logged) (gridFor size) index)
      fun data _ => Q data := by
  rintro ⟨⟨log, state⟩, world⟩ ⟨hV, home, ledger, hkeeps, hA⟩
  obtain ⟨hsame, hloaded, -⟩ := hkeeps.loadBlock index
  cases hload : (ledger.loadBlock index).1 with
  | some data =>
    obtain ⟨hnext, hQ⟩ := hfound hA hload
    rw [run_fetch_of_some (hsame.trans hload)]
    exact ⟨⟨hV, home, _, hloaded, hnext⟩, id, hQ⟩
  | none =>
    let missed : World η := { world with storage := (world.storage.loadBlock entry.key index).2 }
    have hlength := h.length_le ((gridFor size).start index) ((gridFor size).width index)
      (state, missed)
    have hread := h.readAt missed.storage ((gridFor size).start index) ((gridFor size).width index)
      (state, missed) ⟨hV, rfl⟩
    obtain ⟨data, state', world', hrun⟩ : ∃ data state' world',
        inner.readAt ((gridFor size).start index) ((gridFor size).width index) (state, missed) =
          (data, (state', world')) := ⟨_, _, _, rfl⟩
    rw [hrun] at hlength hread
    obtain ⟨hV', hstorage⟩ := hread.valid
    obtain ⟨hnext, hQ⟩ := hmissed hA hload hlength
    have hrecorded := run_recorded inner log state missed ((gridFor size).start index)
      ((gridFor size).width index)
    rw [hrun] at hrecorded
    have hread : world'.storage.Keeps entry home (ledger.loadBlock index).2 := by
      rw [show world'.storage = missed.storage from hstorage]
      exact hloaded
    rw [run_fetch_of_none (hsame.trans hload) hrecorded]
    dsimp only
    split
    · next hfull =>
      rw [if_pos hfull] at hnext
      exact ⟨⟨hV', home, _, (hread.saveBlock index data).1, hnext⟩, id, hQ⟩
    · next hshort =>
      rw [if_neg hshort] at hnext
      exact ⟨⟨hV', home, _, hread, hnext⟩, id, hQ⟩

/-- The store that is open on an entry that is accounted for. -/
theorem Accounts.exists_store {s : (List SourceRead × σ) × World η}
    (h : Accounts V entry A s) (hserving : ∀ {log ledger}, A log ledger →
      ledger.Serving entry.path size) :
    ∃ store, s.2.storage.store? entry.key = some store ∧ store.size = size := by
  obtain ⟨-, home, ledger, hkeeps, hA⟩ := h
  obtain ⟨store, hopen⟩ := (hserving hA).exists_store
  exact ⟨store, hkeeps.store_eq.trans hopen, ((hserving hA).steady.store_eq store hopen).2⟩

/-- Every read on record that delivered a block in full has had it stored. -/
def Stores (path : String) (size index : Nat) (log : List SourceRead) (ledger : Ledger) : Prop :=
  ledger.Serving path size ∧
    ∀ read ∈ log, read.Delivers size index → ledger.Retains path size index read.data

theorem stores_readAt (h : Sized inner size V) (hstorable : Storable size index)
    (offset len : Nat) :
    Ensures (Accounts V entry (Stores entry.path size index)) (fun _ => True)
      (readAt (some entry.key) (inner.recorded.within logged) offset len) fun _ _ => True := by
  refine ensures_readAt_of (fun s hs => hs.exists_store And.left) (fun other hinside => ?_) offset len
  refine (ensures_fetch_accounts (Q := fun _ => True) h ?_ ?_).imp fun _ _ _ _ => trivial
  · intro log ledger data hA _
    rw [hA.1.steady.loadBlock]
    exact ⟨hA, trivial⟩
  · rintro log ledger data ⟨hserving, hstored⟩ hload -
    rw [hserving.steady.loadBlock]
    refine ⟨?_, trivial⟩
    obtain hfull | hshort := Decidable.em (data.length = (gridFor size).width other)
    · obtain ⟨hserving', hextends, hnew⟩ := hserving.saveBlock hinside hload hfull
      rw [if_pos hfull]
      refine ⟨hserving', List.forall_mem_append.mpr ⟨fun read hread hdelivers => ?_,
        List.forall_mem_singleton.mpr fun hdelivers => ?_⟩⟩
      · exact (hstored read hread hdelivers).extends ⟨hserving'.steady, hextends⟩
      · obtain rfl : other = index :=
          BlockGrid.start_injective blockSize_ne_zero hdelivers.1
        exact hnew hstorable
    · rw [if_neg hshort]
      refine ⟨hserving, List.forall_mem_append.mpr ⟨hstored,
        List.forall_mem_singleton.mpr fun hdelivers => ?_⟩⟩
      obtain rfl : other = index :=
        BlockGrid.start_injective blockSize_ne_zero hdelivers.1
      exact absurd hdelivers.2 hshort

/-- A block is there, and no read on record has asked for a byte of it. -/
def Spares (path : String) (size index : Nat) (stored : Bytes) (log : List SourceRead)
    (ledger : Ledger) : Prop :=
  (ledger.Serving path size ∧ ledger.Retains path size index stored) ∧
    ∀ read ∈ log, ¬(gridFor size).Touches index read.offset read.len

/-- **A block that is there is served from the store, and the source is not asked for it.** -/
theorem spares_readAt (h : Sized inner size V)
    (hstored : stored.length = (gridFor size).width index) (offset len : Nat) :
    Ensures (Accounts V entry (Spares entry.path size index stored)) (fun _ => True)
      (readAt (some entry.key) (inner.recorded.within logged) offset len) fun data _ =>
        (gridFor size).Agrees index stored offset data ∧
          ((gridFor size).Covers index offset →
            Bytes.slice stored (offset - (gridFor size).start index) len <+: data) := by
  refine ensures_readAt_block (fun s hs => hs.exists_store fun hA => hA.1.1)
    (fun other hinside => ?_) hstored offset len
  refine ensures_fetch_accounts h ?_ ?_
  · rintro log ledger data ⟨⟨hserving, hretains⟩, hspared⟩ hload
    rw [hserving.steady.loadBlock]
    refine ⟨⟨⟨hserving, hretains⟩, hspared⟩, ?_, ?_⟩
    · exact hserving.length_of_loadBlock hload
    · rintro rfl
      exact Option.some.inj (hload.symm.trans (hserving.loadBlock_of_retains hretains))
  · rintro log ledger data ⟨⟨hserving, hretains⟩, hspared⟩ hload hlength
    have hne : other ≠ index := by
      rintro rfl
      cases hload.symm.trans (hserving.loadBlock_of_retains hretains)
    have hlog : ∀ read ∈ log ++ [⟨(gridFor size).start other, (gridFor size).width other, data⟩],
        ¬(gridFor size).Touches index read.offset read.len :=
      List.forall_mem_append.mpr ⟨hspared, List.forall_mem_singleton.mpr
        ((gridFor size).not_touches ((gridFor size).width_le other) hne)⟩
    rw [hserving.steady.loadBlock]
    refine ⟨⟨?_, hlog⟩, hlength, fun hsame => absurd hsame hne⟩
    obtain hfull | hshort := Decidable.em (data.length = (gridFor size).width other)
    · obtain ⟨hserving', hextends, -⟩ := hserving.saveBlock hinside hload hfull
      rw [if_pos hfull]
      exact ⟨hserving', hretains.extends ⟨hserving'.steady, hextends⟩⟩
    · rw [if_neg hshort]
      exact ⟨hserving, hretains⟩

end DiskCache

end PspBoot
