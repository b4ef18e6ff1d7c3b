import PspBoot.Proofs.Source.RecentBlocks

/-!
# Reads of the source behind the blocks that were used last

Next to the list of recent blocks the reads that a memory cache makes of the source behind it are
easy to tell: the blocks of a read are wanted in ascending order, the source is read for those that
are not in the list when their turn comes, and the first one that does not come in full ends the
read (`fetches_accessAll`).  Blocks that are wanted in one read do not push one another out
(`front_accessAll`), so a read that was not cut short finds all its blocks when it is made again.

`refines_readAll` puts it all together: after any reads the cache and the list agree about what is
kept, and agree about every further read.
-/

namespace PspBoot

/-- The source delivered as many bytes as it was asked for. -/
def SourceRead.IsFull (read : SourceRead) : Prop :=
  read.len ≤ read.data.length

/-- The reads of the source that are made when blocks are wanted while others are kept. -/
structure Fetches (grid : BlockGrid) (kept indices : List Nat) (reads : List SourceRead) :
    Prop where
  /-- Each read is for the range of one of the blocks, each block is read at most once, and the
  blocks are read in their order. -/
  blocks : ∃ fetched : List Nat, fetched.Sublist indices ∧
    reads.map (fun read => (read.offset, read.len)) =
      fetched.map fun index => (grid.start index, grid.width index)
  /-- None but the last of the reads is incomplete. -/
  full : ∀ read ∈ reads.dropLast, read.IsFull
  /-- A block that is not kept is read, unless it comes behind an incomplete read. -/
  reached : ∀ index ∈ indices, index ∉ kept → ∃ read ∈ reads,
    read.offset = grid.start index ∨ ¬read.IsFull ∧ read.offset < grid.start index

namespace Fetches

variable {grid : BlockGrid} {kept kept' indices : List Nat} {reads : List SourceRead} {index : Nat}

theorem nil (grid : BlockGrid) (kept : List Nat) : Fetches grid kept [] [] where
  blocks := ⟨[], .slnil, rfl⟩
  full := nofun
  reached := nofun

/-- A block that is kept is not read. -/
theorem skip (h : Fetches grid kept' indices reads) (hindex : index ∈ kept)
    (hkept : ∀ other ∈ kept', other ∈ kept) : Fetches grid kept (index :: indices) reads where
  blocks := by
    obtain ⟨fetched, hsub, hranges⟩ := h.blocks
    exact ⟨fetched, hsub.cons index, hranges⟩
  full := h.full
  reached other hother hnew := by
    rcases List.mem_cons.mp hother with rfl | hother
    · exact absurd hindex hnew
    · exact h.reached other hother fun hin => hnew (hkept other hin)

/-- A block that is not kept is read.  If it comes in full, the next blocks follow. -/
theorem read (h : Fetches grid kept' indices reads) (data : Bytes)
    (hfull : reads ≠ [] → grid.width index ≤ data.length)
    (hkept : ∀ other ∈ indices, other ∈ kept' → other ∈ kept) :
    Fetches grid kept (index :: indices)
      ({ offset := grid.start index, len := grid.width index, data } :: reads) where
  blocks := by
    obtain ⟨fetched, hsub, hranges⟩ := h.blocks
    refine ⟨index :: fetched, hsub.cons_cons index, ?_⟩
    rw [List.map_cons, List.map_cons, hranges]
  full := by
    intro read hread
    cases reads with
    | nil => cases hread
    | cons next reads =>
      rcases List.mem_cons.mp hread with rfl | hread
      · exact hfull (List.cons_ne_nil _ _)
      · exact h.full read hread
  reached other hother hnew := by
    rcases List.mem_cons.mp hother with rfl | hother
    · exact ⟨_, List.mem_cons_self .., .inl rfl⟩
    · obtain ⟨read, hread, hcase⟩ :=
        h.reached other hother fun hin => hnew (hkept other hother hin)
      exact ⟨read, List.mem_cons_of_mem _ hread, hcase⟩

/-- Behind a block that does not come in full nothing is read. -/
theorem stop {data : Bytes} (hshort : data.length < grid.width index)
    (hafter : ∀ other ∈ indices, grid.start index < grid.start other) :
    Fetches grid kept (index :: indices)
      [{ offset := grid.start index, len := grid.width index, data }] where
  blocks := ⟨[index], List.Sublist.cons_cons index (List.nil_sublist _), rfl⟩
  full := nofun
  reached other hother _ := by
    refine ⟨_, List.mem_singleton_self _, ?_⟩
    rcases List.mem_cons.mp hother with rfl | hother
    · exact .inl rfl
    · exact .inr ⟨Nat.not_le.mpr hshort, hafter other hother⟩

end Fetches

namespace RecentBlocks

variable {σ : Type} {inner : Source σ} {policy : MemoryPolicy} {capacity index : Nat}
  {grid : BlockGrid} {recent : RecentBlocks}

theorem mem_use {other : Nat} (hindex : index ∈ recent.order) :
    other ∈ (recent.use index).order ↔ other ∈ recent.order := by
  by_cases hsame : other = index
  · subst hsame
    exact iff_of_true (List.mem_cons_self ..) hindex
  · rw [use, List.mem_cons, List.mem_erase_of_ne hsame]
    exact or_iff_right hsame

theorem mem_of_mem_push {other : Nat} (h : other ∈ (recent.push capacity index).order) :
    other = index ∨ other ∈ recent.order := by
  rw [push] at h
  dsimp only at h
  split at h
  · exact List.mem_cons.mp ((List.dropLast_subset _) h)
  · exact List.mem_cons.mp h

/-- The reads of the source are made for the blocks that are not kept, up to the first one that
does not come in full. -/
theorem fetches_accessAll (capacity : Nat) (inner : Source σ) (grid : BlockGrid)
    (hgrid : grid.blockSize ≠ 0) (indices : List Nat) (hascending : indices.Pairwise (· < ·))
    (recent : RecentBlocks) (x : List SourceRead × σ) :
    let run := accessAll capacity inner.recorded grid indices (recent, x)
    ∃ reads, run.2.2.1 = x.1 ++ reads ∧ Fetches grid recent.order indices reads ∧
      (run.1 = true ↔ ∀ read ∈ reads, read.IsFull) := by
  induction indices generalizing recent x with
  | nil => exact ⟨[], (List.append_nil _).symm, .nil grid _, iff_of_true rfl nofun⟩
  | cons index indices ih =>
    obtain ⟨hafter, hascending⟩ := List.pairwise_cons.mp hascending
    rw [accessAll, run_bind]
    by_cases hmem : index ∈ recent.order
    · obtain ⟨reads, hlog, hfetches, hfull⟩ := ih hascending (recent.want.use index) x
      rw [access_of_mem hmem, if_pos rfl]
      have hmem' : index ∈ recent.want.order := hmem
      exact ⟨reads, hlog, hfetches.skip hmem fun other hin => (mem_use hmem').mp hin, hfull⟩
    · by_cases hshort : (inner.recorded.readAt (grid.start index) (grid.width index) x).1.length <
          grid.width index
      · rw [access_of_short hmem hshort, if_neg Bool.false_ne_true]
        refine ⟨_, rfl, .stop hshort fun other hother => ?_, iff_of_false Bool.false_ne_true ?_⟩
        · exact Nat.mul_lt_mul_of_pos_right (hafter other hother) (Nat.pos_of_ne_zero hgrid)
        · intro hall
          exact absurd (hall _ (List.mem_singleton_self _)) (Nat.not_le.mpr hshort)
      · have hwhole := Nat.not_lt.mp hshort
        rw [access_of_whole hmem hwhole, if_pos rfl]
        obtain ⟨reads, hlog, hfetches, hfull⟩ := ih hascending (recent.want.push capacity index)
          (inner.recorded.readAt (grid.start index) (grid.width index) x).2
        refine ⟨_ :: reads, hlog.trans (List.append_assoc ..), hfetches.read _ (fun _ => hwhole) ?_, ?_⟩
        · intro other hother hin
          exact (mem_of_mem_push hin).resolve_left (Nat.ne_of_gt (hafter other hother))
        · rw [List.forall_mem_cons]
          exact hfull.trans (iff_and_self.mpr fun _ => hwhole)

/-- If all blocks are kept the source is not read. -/
theorem accessAll_of_kept (inner : Source σ) (indices : List Nat)
    (hkept : ∀ index ∈ indices, index ∈ recent.order) (x : σ) :
    (accessAll capacity inner grid indices (recent, x)).2.2 = x := by
  induction indices generalizing recent with
  | nil => rfl
  | cons index indices ih =>
    obtain ⟨hfirst, hrest⟩ := List.forall_mem_cons.mp hkept
    rw [accessAll, run_bind, access_of_mem hfirst, if_pos rfl]
    have hfirst' : index ∈ recent.want.order := hfirst
    exact ih fun other hother => (mem_use hfirst').mpr (hrest other hother)

theorem front_use {front : List Nat} (hfront : front <+: recent.order) (hnew : index ∉ front) :
    index :: front <+: (recent.use index).order := by
  obtain ⟨rest, hrest⟩ := hfront
  rw [use, ← hrest, List.erase_append_right _ hnew, List.prefix_cons_inj]
  exact List.prefix_append ..

theorem front_push {front : List Nat} (hfront : front <+: recent.order)
    (hroom : front.length < capacity) : index :: front <+: (recent.push capacity index).order := by
  have hbegin : index :: front <+: index :: recent.order := (List.prefix_cons_inj index).mpr hfront
  rw [push]
  dsimp only
  split
  · next hmany =>
    rw [List.dropLast_eq_take, List.prefix_take_iff]
    simp only [List.length_cons] at hmany ⊢
    exact ⟨hbegin, by omega⟩
  · exact hbegin

/-- Blocks that are wanted in one go do not push one another out, as long as they are not too many:
those that have been used come first in the list, the latest in front. -/
theorem front_accessAll {front indices : List Nat} {x : σ}
    (hroom : front.length + indices.length ≤ capacity) (hnodup : indices.Nodup)
    (hfront : front <+: recent.order) (hapart : ∀ index ∈ indices, index ∉ front)
    (hall : (accessAll capacity inner grid indices (recent, x)).1 = true) :
    indices.reverse ++ front <+:
      (accessAll capacity inner grid indices (recent, x)).2.1.order := by
  induction indices generalizing front recent x with
  | nil => exact hfront
  | cons index indices ih =>
    obtain ⟨hnew, hnodup⟩ := List.nodup_cons.mp hnodup
    obtain ⟨hindex, hothers⟩ := List.forall_mem_cons.mp hapart
    have hapart' : ∀ other ∈ indices, other ∉ index :: front := by
      intro other hother hin
      rcases List.mem_cons.mp hin with rfl | hin
      · exact hnew hother
      · exact hothers other hother hin
    have hroom' : (index :: front).length + indices.length ≤ capacity := by
      rw [List.length_cons] at hroom ⊢
      omega
    have hfront' : front <+: recent.want.order := hfront
    rw [accessAll, run_bind] at hall ⊢
    rw [List.reverse_cons, List.append_assoc, List.singleton_append]
    by_cases hmem : index ∈ recent.order
    · rw [access_of_mem hmem, if_pos rfl] at hall ⊢
      exact ih hroom' hnodup (front_use hfront' hindex) hapart' hall
    · by_cases hshort : (inner.readAt (grid.start index) (grid.width index) x).1.length <
          grid.width index
      · rw [access_of_short hmem hshort, if_neg Bool.false_ne_true] at hall
        exact absurd hall Bool.false_ne_true
      · rw [access_of_whole hmem (Nat.not_lt.mp hshort), if_pos rfl] at hall ⊢
        have hless : front.length < capacity := Nat.lt_of_lt_of_le (Nat.lt_succ_self _)
          (Nat.le_trans (Nat.le_add_right _ _) hroom')
        exact ih hroom' hnodup (front_push hfront' hless) hapart' hall

/-- A block that does not come in full is not kept. -/
theorem exists_not_mem_of_accessAll {indices : List Nat} {x : σ}
    (hmissing : (accessAll capacity inner grid indices (recent, x)).1 ≠ true) :
    ∃ index ∈ indices,
      index ∉ (accessAll capacity inner grid indices (recent, x)).2.1.order := by
  induction indices generalizing recent x with
  | nil => exact absurd rfl hmissing
  | cons index indices ih =>
    rw [accessAll, run_bind] at hmissing ⊢
    by_cases hmem : index ∈ recent.order
    · rw [access_of_mem hmem, if_pos rfl] at hmissing ⊢
      obtain ⟨other, hother, hgone⟩ := ih hmissing
      exact ⟨other, List.mem_cons_of_mem _ hother, hgone⟩
    · by_cases hshort : (inner.readAt (grid.start index) (grid.width index) x).1.length <
          grid.width index
      · rw [access_of_short hmem hshort, if_neg Bool.false_ne_true]
        exact ⟨index, List.mem_cons_self .., hmem⟩
      · rw [access_of_whole hmem (Nat.not_lt.mp hshort), if_pos rfl] at hmissing ⊢
        obtain ⟨other, hother, hgone⟩ := ih hmissing
        exact ⟨other, List.mem_cons_of_mem _ hother, hgone⟩

/-- After blocks were wanted that are not too many, all of them are kept if they all came in
full. -/
theorem kept_accessAll_iff {indices : List Nat} {x : σ} (hroom : indices.length ≤ capacity)
    (hnodup : indices.Nodup) :
    (accessAll capacity inner grid indices (recent, x)).1 = true ↔
      ∀ index ∈ indices, index ∈ (accessAll capacity inner grid indices (recent, x)).2.1.order := by
  constructor
  · intro hall index hindex
    have hroom' : ([] : List Nat).length + indices.length ≤ capacity := by
      rwa [List.length_nil, Nat.zero_add]
    have hfront := front_accessAll hroom' hnodup List.nil_prefix (fun _ _ => List.not_mem_nil) hall
    exact hfront.subset (List.mem_append_left _ (List.mem_reverse.mpr hindex))
  · intro hkept
    refine Decidable.byContradiction fun hmissing => ?_
    obtain ⟨index, hindex, hgone⟩ := exists_not_mem_of_accessAll hmissing
    exact hgone (hkept index hindex)

/-! ### One read -/

/-- The reads of the source that are made for a read of the list. -/
def innerReads (policy : MemoryPolicy) (inner : Source σ) (offset len : Nat)
    (t : RecentBlocks × σ) : List SourceRead :=
  (readAt policy inner.recorded offset len (t.1, ([], t.2))).2.2.1

/-- What is said of a read of a cache and the same read of the list. -/
structure Agree (policy : MemoryPolicy) (inner : Source σ) (offset len : Nat)
    (s : MemoryCache × σ) (t : RecentBlocks × σ) : Prop where
  /-- The same reads of the source are made. -/
  same : MemoryCache.innerReads policy inner offset len s = innerReads policy inner offset len t
  /-- If more blocks are touched than can be kept, one read of the source is made, and the blocks
  stay as they are. -/
  past : ∀ total, (MemoryCache.size inner s).1 = total →
    policy.effectiveCapacity < ((MemoryCache.grid policy total).touched offset len).length →
      (MemoryCache.readAt policy inner offset len s).2.1 = (MemoryCache.size inner s).2.1 ∧
      ∃ data, MemoryCache.innerReads policy inner offset len s =
        [{ offset, len := min (offset + len) total - offset, data }]
  /-- Otherwise the source is read for the touched blocks that are not kept. -/
  byBlocks : ∀ total, (MemoryCache.size inner s).1 = total →
    ((MemoryCache.grid policy total).touched offset len).length ≤ policy.effectiveCapacity →
      Fetches (MemoryCache.grid policy total) t.1.order
        ((MemoryCache.grid policy total).touched offset len)
        (MemoryCache.innerReads policy inner offset len s)
  /-- The same read once more makes no read of the source if, and only if, no read of the source
  was incomplete. -/
  again : ∀ total, (MemoryCache.size inner s).1 = total →
    ((MemoryCache.grid policy total).touched offset len).length ≤ policy.effectiveCapacity →
      (MemoryCache.innerReads policy inner offset len
          (MemoryCache.readAt policy inner offset len s).2 = [] ↔
        ∀ read ∈ MemoryCache.innerReads policy inner offset len s, read.IsFull)

/-- The size that a list tells, and its state afterwards, do not depend on a record. -/
theorem size_recorded (inner : Source σ) (t : RecentBlocks × σ) :
    size inner.recorded (t.1, ([], t.2)) =
      ((size inner t).1, ((size inner t).2.1, ([], (size inner t).2.2))) := by
  obtain ⟨⟨remembered, order, accesses⟩, x⟩ := t
  cases remembered with
  | some total => rfl
  | none => rfl

theorem order_size (inner : Source σ) (t : RecentBlocks × σ) :
    (size inner t).2.1.order = t.1.order := by
  obtain ⟨⟨remembered, order, accesses⟩, x⟩ := t
  cases remembered with
  | some total => rfl
  | none => rfl

variable {offset len total : Nat} {s : MemoryCache × σ} {t : RecentBlocks × σ}

/-- A read that is not passed on wants the blocks that it touches. -/
theorem readAt_recorded (htotal : (size inner t).1 = total)
    (hroom : ((MemoryCache.grid policy total).touched offset len).length ≤
      policy.effectiveCapacity) :
    (readAt policy inner.recorded offset len (t.1, ([], t.2))).2 =
      (accessAll policy.effectiveCapacity inner.recorded (MemoryCache.grid policy total)
        ((MemoryCache.grid policy total).touched offset len)
        ((size inner t).2.1, ([], (size inner t).2.2))).2 := by
  rw [readAt, run_bind, size_recorded]
  dsimp only
  rw [htotal, if_neg (Nat.not_lt.mpr hroom)]
  rfl

theorem pairwise_touched (grid : BlockGrid) (offset len : Nat) :
    (grid.touched offset len).Pairwise (· < ·) := by
  rw [BlockGrid.touched]
  split
  · exact .nil
  · exact List.pairwise_lt_range'

/-- The reads of the source that a list makes for the blocks that a read touches. -/
theorem fetches_innerReads (htotal : (size inner t).1 = total)
    (hroom : ((MemoryCache.grid policy total).touched offset len).length ≤
      policy.effectiveCapacity) :
    Fetches (MemoryCache.grid policy total) t.1.order
        ((MemoryCache.grid policy total).touched offset len)
        (innerReads policy inner offset len t) ∧
      ((∀ read ∈ innerReads policy inner offset len t, read.IsFull) ↔
        ∀ index ∈ (MemoryCache.grid policy total).touched offset len,
          index ∈ (readAt policy inner.recorded offset len (t.1, ([], t.2))).2.1.order) := by
  have hascending := pairwise_touched (MemoryCache.grid policy total) offset len
  obtain ⟨reads, hlog, hfetches, hfull⟩ := fetches_accessAll policy.effectiveCapacity inner
    (MemoryCache.grid policy total) (MemoryCache.grid_blockSize_ne_zero policy total) _ hascending
    (size inner t).2.1 ([], (size inner t).2.2)
  rw [← order_size inner t, innerReads, readAt_recorded htotal hroom, hlog, List.nil_append]
  exact ⟨hfetches, hfull.symm.trans (kept_accessAll_iff hroom (hascending.imp Nat.ne_of_lt))⟩

/-- A read makes no read of the source if all the blocks that it touches are kept. -/
theorem innerReads_eq_nil_iff (htotal : (size inner t).1 = total)
    (hroom : ((MemoryCache.grid policy total).touched offset len).length ≤
      policy.effectiveCapacity) :
    innerReads policy inner offset len t = [] ↔
      ∀ index ∈ (MemoryCache.grid policy total).touched offset len, index ∈ t.1.order := by
  constructor
  · intro hnone index hindex
    refine Decidable.byContradiction fun hnew => ?_
    obtain ⟨read, hread, -⟩ := (fetches_innerReads htotal hroom).1.reached index hindex hnew
    rw [hnone] at hread
    cases hread
  · intro hkept
    rw [innerReads, readAt_recorded htotal hroom, accessAll_of_kept]
    rwa [order_size]

theorem Paired.unrecorded (h : Paired policy s t) :
    Paired policy (MemoryCache.unrecorded s) (t.1, ([], t.2)) :=
  ⟨h.arranges, congrArg (Prod.mk []) h.inner⟩

/-- The cache makes the reads of the source that the list makes. -/
theorem Paired.innerReads_eq (h : Paired policy s t) (offset len : Nat) :
    MemoryCache.innerReads policy inner offset len s = innerReads policy inner offset len t :=
  congrArg Prod.fst (paired_readAt inner.recorded offset len h.unrecorded).inner

/-- A read with a record leaves cache and list as they are left without. -/
theorem Paired.readAt (h : Paired policy s t) (inner : Source σ) (offset len : Nat) :
    let run := (RecentBlocks.readAt policy inner.recorded offset len (t.1, ([], t.2))).2
    Paired policy (MemoryCache.readAt policy inner offset len s).2 (run.1, run.2.2) := by
  have hrun := paired_readAt inner.recorded offset len h.unrecorded
  rw [MemoryCache.readAt_eq_recorded]
  exact ⟨hrun.arranges, congrArg Prod.snd hrun.inner⟩

/-- **A read of the cache agrees with the same read of the list.** -/
theorem Paired.agree (h : Paired policy s t) (inner : Source σ) (offset len : Nat) :
    Agree policy inner offset len s t where
  same := h.innerReads_eq offset len
  past total htotal hmany := by
    have hrecorded : (MemoryCache.size inner.recorded (MemoryCache.unrecorded s)).1 = total := by
      rw [MemoryCache.size_unrecorded, htotal]
    rw [MemoryCache.innerReads, MemoryCache.readAt_eq_readPast htotal hmany,
      MemoryCache.readAt_eq_readPast hrecorded hmany, MemoryCache.size_unrecorded]
    exact ⟨rfl, _, rfl⟩
  byBlocks total htotal hroom := by
    rw [h.innerReads_eq]
    exact (fetches_innerReads ((paired_size inner h).1.symm.trans htotal) hroom).1
  again total htotal hroom := by
    have hafter := h.readAt inner offset len
    have hremembered := MemoryCache.remembered_readAt policy inner offset len s
    rw [htotal] at hremembered
    have htold := MemoryCache.run_size_of_remembered inner hremembered
    have hsize := (paired_size inner hafter).1.symm.trans (congrArg Prod.fst htold)
    rw [hafter.innerReads_eq, innerReads_eq_nil_iff hsize hroom, h.innerReads_eq,
      (fetches_innerReads ((paired_size inner h).1.symm.trans htotal) hroom).2]

/-- **A memory cache keeps the blocks that were used last.**  Whatever has been read, the cache
keeps the blocks of the list, not more than it may, has read the source as the list demands, and
will do so in any further read.  Its clock has not advanced more often than blocks were wanted. -/
theorem refines_readAll (policy : MemoryPolicy) (inner : Source σ) (reads : List (Nat × Nat))
    (s : σ) :
    let cached := ((inner.memoryCached policy).readAll reads ({}, s)).2
    let listed := (readAll policy inner reads ({}, s)).2
    cached.2 = listed.2 ∧
      (∀ index, (cached.1.find? index).isSome ↔ index ∈ listed.1.order) ∧
      cached.1.blocks.length = listed.1.order.length ∧
      cached.1.blocks.length ≤ policy.effectiveCapacity ∧
      cached.1.clock ≤ listed.1.accesses ∧
      ∀ offset len, Agree policy inner offset len cached listed := by
  intro cached listed
  have hstart : Paired policy (({} : MemoryCache), s) (({} : RecentBlocks), s) :=
    ⟨.initial policy, rfl⟩
  have hpaired : Paired policy cached listed := paired_readAll inner reads hstart
  refine ⟨hpaired.inner, hpaired.arranges.isSome_find?_iff, hpaired.arranges.length_eq, ?_,
    hpaired.arranges.clock, hpaired.agree inner⟩
  rw [hpaired.arranges.length_eq]
  exact hpaired.arranges.room

/-- Of the first two blocks the one that was read again stays when a third one comes. -/
example :
    (readAll { blockSize := 2, capacity := 2 }
      (.ofContent (.ofPath "/game.pbp") [0, 1, 2, 3, 4, 5]) [(0, 1), (2, 1), (0, 1), (4, 1)]
      ({}, ())).2.1.order = [2, 0] := by
  decide +kernel

end RecentBlocks

end PspBoot
