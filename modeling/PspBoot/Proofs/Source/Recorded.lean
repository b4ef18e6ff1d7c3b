import PspBoot.Proofs.Alike
import PspBoot.Proofs.Source.DiskCache

/-!
# Reads behind a disk cache

`source.recorded` is a source that keeps a record of its reads.  A disk cache in front of it reads
as one in front of the source itself (`DiskCache.alike_readAt`), so the record tells which reads a
disk cache makes of the source behind it.
-/

namespace PspBoot

/-- A read of a source, with the answer. -/
structure SourceRead where
  offset : Nat
  len : Nat
  data : Bytes
deriving Repr, DecidableEq

/-- The read was answered with all there is of a content. -/
def SourceRead.IsComplete (content : Bytes) (read : SourceRead) : Prop :=
  read.data = Bytes.slice content read.offset read.len

instance (content : Bytes) (read : SourceRead) : Decidable (read.IsComplete content) :=
  inferInstanceAs (Decidable (_ = _))

variable {σ τ η θ : Type}

/-- The source with a record of its reads, the latest last. -/
def Source.recorded (source : Source σ) : Source (List SourceRead × σ) :=
  { source.within Focus.second with
    readAt := fun offset len => do
      let data ← Focus.second.lift (source.readAt offset len)
      Focus.first.lift (modify (· ++ [{ offset, len, data }]))
      pure data }

/-- A record that something was missing is not taken back. -/
theorem Source.readsFrom_recorded {source : Source σ} {content : Bytes} {V : σ → Prop}
    (h : ReadsFrom content 0 V (fun _ => True) source.readAt) :
    ReadsFrom content content.length (fun x => V x.2)
      (fun x => ∃ read ∈ x.1, ¬read.IsComplete content) source.recorded.readAt := by
  intro offset len x hx
  have hread := h offset len x.2 hx
  constructor
  · exact hread.valid
  · rintro ⟨read, hmem, hmissing⟩
    exact ⟨read, List.mem_append_left _ hmem, hmissing⟩
  · refine .of_eq_or hread.post.isPrefix ?_
    by_cases hcomplete : (source.readAt offset len x.2).1 = Bytes.slice content offset len
    · exact .inl hcomplete
    · exact .inr ⟨_, List.mem_append_right _ (List.mem_singleton_self _), hcomplete⟩

namespace DiskCache

/-- A record beside the state of a source. -/
def logged : Focus ((List SourceRead × σ) × World η) (List SourceRead × (σ × World η)) where
  get s := (s.1.1, (s.1.2, s.2))
  put _ r := ((r.1, r.2.1), r.2.2)

instance : (logged : Focus ((List SourceRead × σ) × World η) _).Lawful where

section Alike

variable {R : σ × World η → τ × World θ → Prop} {inner : Source (σ × World η)}
  {inner' : Source (τ × World θ)}
  (hsame : ∀ s t, R s t → s.2.storage = t.2.storage)
include hsame

/-- What is done to the storage alone is done alike. -/
theorem alike_storage {α : Type} (action : StateM Storage α)
    (hput : ∀ s t, R s t → R (storage.put s (action s.2.storage).2)
      (storage.put t (action s.2.storage).2)) :
    Alike R (storage.lift action) (storage.lift action) := by
  intro s t h
  have hequal := hsame s t h
  constructor
  · simp [hequal]
  · have hnext := hput s t h
    simpa [hequal] using hnext

/-- Disk caches in front of sources that read alike read alike, whatever becomes of the blocks. -/
theorem alike_readAtAs
    (hput : ∀ s t kept, R s t → kept.lease? = s.2.storage.lease? →
      R (storage.put s kept) (storage.put t kept))
    (hread : ∀ offset len, Alike R (inner.readAt offset len) (inner'.readAt offset len))
    (fates : Nat → Storage.BlockFate) (key : Option FilePath.Key) (offset len : Nat) :
    Alike R (readAtAs fates key inner offset len) (readAtAs fates key inner' offset len) := by
  have hfetch (key : FilePath.Key) (grid : BlockGrid) (index : Nat) :
      Alike R (fetchAs (fates index) key inner grid index)
        (fetchAs (fates index) key inner' grid index) := by
    apply (alike_storage hsame _ fun s t h =>
      hput s t _ h (Storage.lease?_loadBlockAs ..)).bind
    intro found
    cases found with
    | some data => exact .pure data
    | none =>
      apply (hread _ _).bind
      intro data
      by_cases hcomplete : data.length = grid.width index
      · rw [if_pos hcomplete, if_pos hcomplete]
        refine (alike_storage hsame _ fun s t h => hput s t _ h ?_).bind fun _ => .pure data
        exact Storage.lease?_saveBlockAs ..
      · rw [if_neg hcomplete, if_neg hcomplete]
        exact .pure data
  apply (alike_storage hsame _ fun s t h => hput s t _ h rfl).bind
  intro store
  cases key with
  | none => exact hread offset len
  | some key =>
    cases store with
    | none => exact hread offset len
    | some store =>
      refine .ite (.pure []) ?_
      apply BlockGrid.alike_collect (hfetch key store.grid)

theorem alike_readAt
    (hput : ∀ s t kept, R s t → kept.lease? = s.2.storage.lease? →
      R (storage.put s kept) (storage.put t kept))
    (hread : ∀ offset len, Alike R (inner.readAt offset len) (inner'.readAt offset len))
    (key : Option FilePath.Key) (offset len : Nat) :
    Alike R (readAt key inner offset len) (readAt key inner' offset len) := by
  rw [← readAtAs_usual, ← readAtAs_usual]
  exact alike_readAtAs hsame hput hread _ key offset len

end Alike

/-- The reads that a disk cache makes of the source behind it for one read of its own. -/
def innerReads (key : Option FilePath.Key) (inner : Source (σ × World η)) (offset len : Nat)
    (s : σ × World η) : List SourceRead :=
  (readAt key (inner.recorded.within logged) offset len (([], s.1), s.2)).2.1.1

/-- The same, where the device may fail. -/
def innerReadsAs (fates : Nat → Storage.BlockFate) (key : Option FilePath.Key)
    (inner : Source (σ × World η)) (offset len : Nat) (s : σ × World η) : List SourceRead :=
  (readAtAs fates key (inner.recorded.within logged) offset len (([], s.1), s.2)).2.1.1

variable {entry : CacheEntry} {content : Bytes} {V : σ × η → Prop} {inner : Source (σ × World η)}
  {key : Option FilePath.Key} {s : σ × World η}

/-- A read with a record is the read without it. -/
theorem readAtAs_eq_recorded (fates : Nat → Storage.BlockFate) (key : Option FilePath.Key)
    (inner : Source (σ × World η)) (offset len : Nat) (s : σ × World η) :
    let recorded := readAtAs fates key (inner.recorded.within logged) offset len (([], s.1), s.2)
    readAtAs fates key inner offset len s = (recorded.1, (recorded.2.1.2, recorded.2.2)) := by
  -- The states are related that are the same but for the record.
  let R (s : σ × World η) (t : (List SourceRead × σ) × World η) : Prop := s = (t.1.2, t.2)
  have hread (offset len : Nat) :
      Alike R (inner.readAt offset len) ((inner.recorded.within logged).readAt offset len) := by
    rintro _ t rfl
    exact ⟨rfl, rfl⟩
  have halike : Alike R (readAtAs fates key inner offset len)
      (readAtAs fates key (inner.recorded.within logged) offset len) := by
    apply alike_readAtAs _ _ hread
    · rintro _ t rfl
      rfl
    · rintro _ t kept rfl _
      rfl
  obtain ⟨hdata, hstate⟩ := halike s (([], s.1), s.2) rfl
  exact Prod.ext hdata hstate

theorem readAt_eq_recorded (key : Option FilePath.Key) (inner : Source (σ × World η))
    (offset len : Nat) (s : σ × World η) :
    let recorded := readAt key (inner.recorded.within logged) offset len (([], s.1), s.2)
    readAt key inner offset len s = (recorded.1, (recorded.2.1.2, recorded.2.2)) := by
  rw [← readAtAs_usual, ← readAtAs_usual]
  exact readAtAs_eq_recorded _ key inner offset len s

/-- **A disk cache passes on no wrong byte**, and none is missing from a read if none was missing
from the reads that it made of the source, whatever else fails.  Either it has no store, or one that
serves the content of the source. -/
theorem readAtAs_spec (h : Faithful inner content V) (hV : V (aside.get s))
    (hkey : key = none ∨ key = some entry.key ∧ s.2.storage.Serving entry content)
    (fates : Nat → Storage.BlockFate) (offset len : Nat) :
    (readAtAs fates key inner offset len s).1 <+: Bytes.slice content offset len ∧
      ((∀ read ∈ innerReadsAs fates key inner offset len s, read.IsComplete content) →
        (readAtAs fates key inner offset len s).1 = Bytes.slice content offset len) := by
  let missing (r : (List SourceRead × σ) × η) : Prop :=
    ∃ read ∈ r.1.1, ¬read.IsComplete content
  have hread (kept : Storage) : ReadsFrom content content.length
      (Beside (fun r : (List SourceRead × σ) × η => V (r.1.2, r.2)) (· = kept))
      (fun s => missing (aside.get s)) (inner.recorded.within logged).readAt := by
    intro offset len w hw
    have hplain : ReadsFrom content 0 (Beside V (· = kept)) (fun _ => True) inner.readAt :=
      fun offset len t ht =>
        have hdata := h.readAt kept offset len t ht
        ⟨hdata.valid, id, hdata.post, .inr trivial⟩
    have hlogged := Source.readsFrom_recorded hplain offset len (logged.get w) hw
    exact ⟨hlogged.valid, hlogged.excused, hlogged.post⟩
  have hdelivered : Delivered content.length (Bytes.slice content offset len)
      (readAtAs fates key inner offset len s).1
      (∃ read ∈ innerReadsAs fates key inner offset len s, ¬read.IsComplete content) := by
    rw [readAtAs_eq_recorded]
    dsimp only
    rcases hkey with rfl | ⟨rfl, hserving⟩
    · exact (hread s.2.storage offset len (([], s.1), s.2) ⟨hV, rfl⟩).post
    · have hstored := readsFromAs (E := missing) hread (servesAs_serving fates entry content)
        (Nat.min_le_right _ _) offset len (([], s.1), s.2) ⟨hV, hserving⟩
      exact hstored.post
  refine ⟨hdelivered.isPrefix, fun hcomplete => ?_⟩
  rcases hdelivered.eq_or (by rw [Bytes.length_slice]; omega) with heq | ⟨read, hmem, hmissing⟩
  · exact heq
  · exact absurd (hcomplete read hmem) hmissing

end DiskCache

end PspBoot
