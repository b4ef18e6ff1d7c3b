import PspBoot.Proofs.Source.MemoryCache
import PspBoot.Proofs.Source.Recorded

/-!
# Memory caches in front of sources that falter

A source falters if it knows the length of its content and answers a read with some of the first
bytes that were asked for, now with all of them and now with none.  A memory cache in front of it
may have been read in any way, and some of the fetches may have failed: every block that it keeps is
the block of the content, what it delivers is right as far as it goes, and it is all there is if
nothing was missing from the reads that the cache made of the source *this time*
(`transparent_readAll`).  It makes no difference whether a read goes by blocks or past the cache.

`innerReads` is the record of the reads that the cache makes of the source for one of its own.
-/

namespace PspBoot

variable {σ τ : Type}

namespace Source

/-- Several reads, one after the other. -/
def readAll (source : Source σ) : List (Nat × Nat) → StateM σ (List Bytes)
  | [] => pure []
  | (offset, len) :: reads => do
      let data ← source.readAt offset len
      let others ← source.readAll reads
      pure (data :: others)

/-- What every read keeps, several reads keep. -/
theorem valid_readAll {source : Source σ} {V : σ → Prop}
    (h : ∀ offset len s, V s → V (source.readAt offset len s).2) (reads : List (Nat × Nat)) {s : σ}
    (hs : V s) : V (source.readAll reads s).2 := by
  induction reads generalizing s with
  | nil => exact hs
  | cons read reads ih => exact ih (h read.1 read.2 s hs)

/-- Something was missing from a read that has been recorded. -/
abbrev Lacks (content : Bytes) (x : List SourceRead × σ) : Prop :=
  ∃ read ∈ x.1, ¬read.IsComplete content

/-- The source tells the length of a content and answers every read with some of the first bytes
that were asked for, possibly none. -/
structure Falters (source : Source σ) (content : Bytes) (V : σ → Prop) : Prop where
  size : Yields V source.size content.length
  readAt : ∀ offset len, Ensures V (fun _ => True) (source.readAt offset len) fun data _ =>
    data <+: Bytes.slice content offset len

namespace Falters

variable {source : Source σ} {content : Bytes} {V : σ → Prop}

/-- With a record of what was missing, all that is missing is excused. -/
theorem readsFrom_recorded (h : source.Falters content V) :
    ReadsFrom content content.length (fun x => V x.2) (Lacks content) source.recorded.readAt := by
  refine Source.readsFrom_recorded fun offset len => (h.readAt offset len).imp ?_
  exact fun data s _ hdata => ⟨hdata, .inr trivial⟩

theorem size_recorded (h : source.Falters content V) :
    Ensures (fun x => V x.2) (Lacks content) source.recorded.size fun n x =>
      n = content.length ∨ n = 0 ∧ Lacks content x := by
  intro x hx
  obtain ⟨hsize, hnext⟩ := h.size x.2 hx
  exact ⟨hnext, id, .inl hsize⟩

end Falters

/-- The source that delivers all that was asked for at every other read, and half of it at the
reads in between.  Its state is the number of reads. -/
def halting (content : Bytes) : Source Nat where
  locator := .ofPath "/halting"
  isPresent := pure true
  isDirectory := pure false
  size := pure content.length
  readAt offset len := fun count =>
    (Bytes.slice content offset (if count % 2 = 0 then len / 2 else len), count + 1)
  lastFailure := pure none

theorem falters_halting (content : Bytes) : (halting content).Falters content fun _ => True where
  size := .pure _
  readAt offset len count _ := by
    refine ⟨trivial, id, Bytes.slice_prefix_slice content offset ?_⟩
    split
    · exact Nat.div_le_self len 2
    · exact Nat.le_refl len

end Source

/-- The number of blocks that lie between two offsets, wholly or in part. -/
def BlockGrid.span (grid : BlockGrid) (offset stop : Nat) : Nat :=
  grid.indexOf (stop - 1) - grid.indexOf offset + 1

namespace MemoryCache

variable {inner : Source σ} {content : Bytes} {V : σ → Prop} {policy : MemoryPolicy}

/-- Equal caches in front of states that are related. -/
def Abreast (R : σ → τ → Prop) (x : MemoryCache × σ) (y : MemoryCache × τ) : Prop :=
  x.1 = y.1 ∧ R x.2 y.2

/-- Equal caches stay equal if the same is done to them. -/
theorem alike_first {R : σ → τ → Prop} {α : Type} (action : StateM MemoryCache α) :
    Alike (Abreast R) (Focus.first.lift action) (Focus.first.lift action) := by
  rintro ⟨cache, s⟩ ⟨_, t⟩ ⟨rfl, h⟩
  exact ⟨rfl, rfl, h⟩

/-- What is done behind the caches leaves them as they are. -/
theorem alike_second {R : σ → τ → Prop} {α : Type} {action : StateM σ α} {action' : StateM τ α}
    (halike : Alike R action action') :
    Alike (Abreast R) (Focus.second.lift action) (Focus.second.lift action') := by
  rintro ⟨cache, s⟩ ⟨_, t⟩ ⟨rfl, h⟩
  exact ⟨(halike s t h).1, rfl, (halike s t h).2⟩

theorem alike_size {R : σ → τ → Prop} {inner : Source σ} {inner' : Source τ}
    (hsize : Alike R inner.size inner'.size) :
    Alike (Abreast R) (size inner) (size inner') := by
  apply (alike_first get).bind
  intro cache
  cases cache.rememberedSize with
  | some n => exact .pure n
  | none => exact (alike_second hsize).bind fun n => (alike_first _).bind fun _ => .pure n

/-- Memory caches in front of sources that read alike read alike. -/
theorem alike_readAt {R : σ → τ → Prop} {inner : Source σ} {inner' : Source τ}
    (hsize : Alike R inner.size inner'.size)
    (hread : ∀ offset len, Alike R (inner.readAt offset len) (inner'.readAt offset len))
    (policy : MemoryPolicy) (offset len : Nat) :
    Alike (Abreast R) (readAt policy inner offset len) (readAt policy inner' offset len) := by
  have hfetch (grid : BlockGrid) (index : Nat) :
      Alike (Abreast R) (fetch policy.effectiveCapacity inner grid index)
        (fetch policy.effectiveCapacity inner' grid index) := by
    apply (alike_first get).bind
    intro cache
    cases cache.find? index with
    | some block => exact (alike_first _).bind fun _ => .pure block.data
    | none =>
      apply (alike_second (hread _ _)).bind
      intro data
      exact .ite (.pure data) ((alike_first _).bind fun _ => .pure data)
  apply (alike_size hsize).bind
  intro total
  refine .ite (.pure []) (.ite (alike_second (hread _ _)) ?_)
  exact BlockGrid.alike_collect (hfetch _) _ _ _ _

/-- The state of a cache in front of a source of which no read has been recorded so far. -/
def unrecorded (s : MemoryCache × σ) : MemoryCache × (List SourceRead × σ) :=
  (s.1, ([], s.2))

/-- The reads that a memory cache makes of the source behind it for one read of its own. -/
def innerReads (policy : MemoryPolicy) (inner : Source σ) (offset len : Nat)
    (s : MemoryCache × σ) : List SourceRead :=
  (readAt policy inner.recorded offset len (unrecorded s)).2.2.1

/-- A read with a record is the read without it. -/
theorem readAt_eq_recorded (policy : MemoryPolicy) (inner : Source σ) (offset len : Nat)
    (s : MemoryCache × σ) :
    let recorded := readAt policy inner.recorded offset len (unrecorded s)
    readAt policy inner offset len s = (recorded.1, (recorded.2.1, recorded.2.2.2)) := by
  let R (t : σ) (u : List SourceRead × σ) : Prop := t = u.2
  have halike : Alike (Abreast R) (readAt policy inner offset len)
      (readAt policy inner.recorded offset len) := by
    apply alike_readAt
    · rintro _ t rfl
      exact ⟨rfl, rfl⟩
    · rintro offset len _ t rfl
      exact ⟨rfl, rfl⟩
  obtain ⟨hdata, hcache, hinner⟩ := halike s (unrecorded s) ⟨rfl, rfl⟩
  exact Prod.ext hdata (Prod.ext hcache hinner)

/-! ### The remembered size -/

/-- No fetch changes the size that is remembered. -/
theorem ensures_fetch_remembered (capacity : Nat) (inner : Source σ) (grid : BlockGrid)
    (size? : Option Nat) (index : Nat) :
    Ensures (fun x => x.1.rememberedSize = size?) (fun _ => True)
      (fetch capacity inner grid index) fun _ _ => True := by
  intro s hs
  apply Outcome.look
  cases (Focus.first.get s).find? index with
  | some block => exact ⟨hs, id, trivial⟩
  | none =>
    refine Outcome.bind (Q := fun _ _ => True) ⟨hs, id, trivial⟩ fun data t ht _ => ?_
    split
    · exact .same ht trivial
    · exact ⟨ht, id, trivial⟩

/-- When the size has been asked for it is remembered. -/
theorem remembered_size (inner : Source σ) (s : MemoryCache × σ) :
    (size inner s).2.1.rememberedSize = some (size inner s).1 := by
  rcases s with ⟨⟨remembered, blocks, clock⟩, t⟩
  cases remembered with
  | some n => rfl
  | none => rfl

/-- What is remembered is told without asking. -/
theorem run_size_of_remembered (inner : Source σ) {s : MemoryCache × σ} {total : Nat}
    (h : s.1.rememberedSize = some total) : size inner s = (total, s) := by
  obtain ⟨⟨remembered, blocks, clock⟩, t⟩ := s
  obtain rfl : remembered = some total := h
  rfl

/-- The size that a cache tells, and its state afterwards, do not depend on a record. -/
theorem size_unrecorded (inner : Source σ) (s : MemoryCache × σ) :
    size inner.recorded (unrecorded s) = ((size inner s).1, unrecorded (size inner s).2) := by
  rcases s with ⟨⟨remembered, blocks, clock⟩, t⟩
  cases remembered with
  | some n => rfl
  | none => rfl

/-- Behind a read the size is remembered that was told before it. -/
theorem remembered_readAt (policy : MemoryPolicy) (inner : Source σ) (offset len : Nat)
    (s : MemoryCache × σ) :
    (readAt policy inner offset len s).2.1.rememberedSize = some (size inner s).1 := by
  have hsize := remembered_size inner s
  unfold readAt
  rw [run_bind]
  dsimp only
  split
  · exact hsize
  · rw [run_ite]
    split
    · exact hsize
    · refine (BlockGrid.ensures_collect_of
        (V := fun x : MemoryCache × σ => x.1.rememberedSize = some (size inner s).1)
        (E := fun _ => True) _ (fun k _ => ?_) _ hsize).valid
      apply ensures_fetch_remembered

/-! ### What a cache promises of a content -/

/-- What a memory cache in a given state promises of the content behind it. -/
structure Transparent (policy : MemoryPolicy) (inner : Source σ) (content : Bytes)
    (s : MemoryCache × σ) : Prop where
  /-- Every kept block is the whole block of the content with its number. -/
  kept : ∀ block ∈ s.1.blocks, block.data = (gridOf policy content).blockOf content block.index
  /-- A read delivers no wrong byte. -/
  isPrefix : ∀ offset len,
    (readAt policy inner offset len s).1 <+: Bytes.slice content offset len
  /-- A read is whole if nothing was missing from the reads that it made of the source. -/
  whole : ∀ offset len,
    (∀ read ∈ innerReads policy inner offset len s, read.IsComplete content) →
      (readAt policy inner offset len s).1 = Bytes.slice content offset len
  /-- A fetch from which something was missing leaves the cache as it was. -/
  dropped : ∀ index, s.1.find? index = none →
    (inner.readAt ((gridOf policy content).start index) ((gridOf policy content).width index)
        s.2).1.length < (gridOf policy content).width index →
      (fetch policy.effectiveCapacity inner (gridOf policy content) index s).2.1 = s.1
  /-- A read that has to deliver anything goes past the cache if it touches too many blocks, and by
  blocks otherwise. -/
  either : ∀ offset len, offset < content.length → len ≠ 0 →
    let stop := min (offset + len) content.length
    readAt policy inner offset len s =
      if policy.effectiveCapacity < (gridOf policy content).span offset stop then
        readPast inner offset stop (size inner s).2
      else
        readByBlocks policy inner (gridOf policy content) offset stop (size inner s).2
  /-- Both ways deliver no wrong byte, and the same if nothing was missing from the reads that
  they made of the source. -/
  agree : ∀ offset len, offset < content.length → len ≠ 0 →
    let stop := min (offset + len) content.length
    let past := readPast inner.recorded offset stop (unrecorded (size inner s).2)
    let byBlocks := readByBlocks policy inner.recorded (gridOf policy content) offset stop
      (unrecorded (size inner s).2)
    past.1 <+: Bytes.slice content offset len ∧ byBlocks.1 <+: Bytes.slice content offset len ∧
      ((∀ read ∈ past.2.2.1, read.IsComplete content) →
        (∀ read ∈ byBlocks.2.2.1, read.IsComplete content) → past.1 = byBlocks.1)

/-! ### Reads in any state -/

/-- A cache that has kept and remembered nothing wrong. -/
abbrev Sound (policy : MemoryPolicy) (content : Bytes) (V : σ → Prop) : MemoryCache × σ → Prop :=
  Mirrors policy content V fun _ => False

variable {s : MemoryCache × σ}

/-- A sound cache is sound in front of a source with a record, with nothing to excuse so far. -/
theorem Mirrors.unrecorded (hs : Sound policy content V s) (E : List SourceRead × σ → Prop) :
    Mirrors policy content (fun x => V x.2) E (unrecorded s) where
  inner := hs.inner
  size n hn := .inl ((hs.size n hn).resolve_right And.right)
  blocks := hs.blocks

/-- What is missing from recorded reads does not concern the size, if the source tells it. -/
theorem Mirrors.forget {E : List SourceRead × σ → Prop} {x : MemoryCache × (List SourceRead × σ)}
    (hx : Mirrors policy content (fun x => V x.2) E x)
    (hsize : x.1.rememberedSize = some content.length) :
    Sound policy content V (x.1, x.2.2) where
  inner := hx.inner
  size _ hn := .inl (Option.some.inj (hn.symm.trans hsize))
  blocks := hx.blocks

/-- A sound cache tells the length of the content, and is sound afterwards. -/
theorem run_size (h : inner.Falters content V) (hs : Sound policy content V s) :
    (size inner s).1 = content.length ∧ Sound policy content V (size inner s).2 := by
  have hsize : Ensures V (fun _ => False) inner.size fun n _ => n = content.length ∨ n = 0 ∧ False :=
    fun t ht => ⟨(h.size t ht).2, id, .inl (h.size t ht).1⟩
  have hrun := ensures_size hsize s hs
  exact ⟨hrun.post.resolve_right And.right, hrun.valid⟩

/-- What a read delivers in front of a source with a record. -/
theorem delivered_recorded {offset len : Nat}
    {action : StateM (MemoryCache × (List SourceRead × σ)) Bytes}
    (haction : Ensures (Mirrors policy content (fun x => V x.2) (Source.Lacks content))
      (fun x => Source.Lacks content x.2) action fun data x =>
        Delivered content.length (Bytes.slice content offset len) data (Source.Lacks content x.2))
    (hs : Sound policy content V s) :
    (action (unrecorded s)).1 <+: Bytes.slice content offset len ∧
      ((∀ read ∈ (action (unrecorded s)).2.2.1, read.IsComplete content) →
        (action (unrecorded s)).1 = Bytes.slice content offset len) := by
  have hdelivered := (haction _ (hs.unrecorded _)).post
  refine ⟨hdelivered.isPrefix, fun hcomplete => ?_⟩
  rcases hdelivered.eq_or (by rw [Bytes.length_slice]; omega) with heq | ⟨read, hmem, hmissing⟩
  · exact heq
  · exact absurd (hcomplete read hmem) hmissing

/-- In front of a source with a record, a cache delivers the content but for what was missing. -/
theorem readsFrom_recorded (policy : MemoryPolicy) (h : inner.Falters content V) :
    ReadsFrom content content.length
      (Mirrors policy content (fun x => V x.2) (Source.Lacks content))
      (fun x => Source.Lacks content x.2) (readAt policy inner.recorded) :=
  readsFrom h.size_recorded h.readsFrom_recorded (Nat.min_le_right _ _)

/-- A read keeps a cache sound. -/
theorem sound_readAt (h : inner.Falters content V) (hs : Sound policy content V s)
    (offset len : Nat) : Sound policy content V (readAt policy inner offset len s).2 := by
  have hsize := remembered_readAt policy inner offset len s
  rw [(run_size h hs).1] at hsize
  have hrecorded := readsFrom_recorded policy h offset len _ (hs.unrecorded _)
  rw [readAt_eq_recorded] at hsize ⊢
  exact hrecorded.valid.forget hsize

/-- **A sound cache is transparent**, whatever the source did or did not deliver before. -/
theorem Mirrors.transparent (h : inner.Falters content V) (hs : Sound policy content V s) :
    Transparent policy inner content s where
  kept := hs.blocks
  isPrefix offset len := by
    rw [readAt_eq_recorded]
    exact (delivered_recorded (readsFrom_recorded policy h offset len) hs).1
  whole offset len hcomplete := by
    rw [readAt_eq_recorded]
    exact (delivered_recorded (readsFrom_recorded policy h offset len) hs).2 hcomplete
  dropped index hfree hshort := by
    rw [fetch_of_short hfree hshort]
  either offset len hoffset hlen := by
    have hsome : ¬(content.length ≤ offset ∨ len = 0) := by omega
    have hsize := (run_size h hs).1
    unfold readAt BlockGrid.span
    rw [run_bind, hsize]
    dsimp only
    rw [if_neg hsome, run_ite]
    exact ite_congr (propext Nat.lt_succ_iff.symm) (fun _ => rfl) (fun _ => rfl)
  agree offset len hoffset hlen := by
    have hasked := (run_size h hs).2
    have hpast := delivered_recorded (ensures_readPast h.readsFrom_recorded len hoffset) hasked
    have hblocks := delivered_recorded
      (ensures_readByBlocks h.readsFrom_recorded (Nat.min_le_right _ _) hoffset hlen) hasked
    refine ⟨hpast.1, hblocks.1, fun hpastWhole hblocksWhole => ?_⟩
    exact (hpast.2 hpastWhole).trans (hblocks.2 hblocksWhole).symm

/-- **A memory cache in front of a source that falters is transparent**, whatever has been read
before and whatever was missing from it. -/
theorem transparent_readAll (policy : MemoryPolicy) (h : inner.Falters content V)
    (reads : List (Nat × Nat)) {s : σ} (hs : V s) :
    Transparent policy inner content ((inner.memoryCached policy).readAll reads ({}, s)).2 := by
  have hstart : Sound policy content V (({} : MemoryCache), s) := .initial hs
  refine Mirrors.transparent h (Source.valid_readAll ?_ reads hstart)
  exact fun offset len t ht => sound_readAt h ht offset len

/-- Every other read delivers half of what was asked for, and the rest of them all. -/
theorem transparent_readAll_halting :
    let source := Source.halting [1, 2, 3, 4, 5, 6, 7, 8, 9, 10]
    let policy : MemoryPolicy := { blockSize := 4, capacity := 2 }
    let run := (source.memoryCached policy).readAll [(1, 4), (1, 4), (0, 10)] ({}, 0)
    source.Falters [1, 2, 3, 4, 5, 6, 7, 8, 9, 10] (fun _ => True) ∧
      run.1 = [[2], [2, 3, 4, 5], [1, 2, 3, 4, 5, 6, 7, 8, 9, 10]] ∧
      run.2.1.blocks.map (·.data) = [[1, 2, 3, 4]] ∧
      Transparent policy source [1, 2, 3, 4, 5, 6, 7, 8, 9, 10] run.2 :=
  ⟨Source.falters_halting _, by decide, by decide,
    transparent_readAll _ (Source.falters_halting _) _ trivial⟩

end MemoryCache

end PspBoot
