import PspBoot.Chain.Basic
import PspBoot.Proofs.Source.Call
import PspBoot.Proofs.Source.Faltering
import PspBoot.Proofs.Source.Recorded

/-!
# Sources that do the same

Two sources are twins if all their operations do the same, the account of failures included.  What
the sources are called does not count.  Twins stay twins behind retries and behind caches, and the
sources of which they are parts are twins as well.
-/

namespace PspBoot

variable {σ τ σ' τ' η θ α β : Type} {R : σ → τ → Prop} {a : Source σ} {b : Source τ}

/-- From related states all operations give equal results and lead to related states. -/
structure Source.Twins (R : σ → τ → Prop) (a : Source σ) (b : Source τ) : Prop where
  isPresent : PspBoot.Alike R a.isPresent b.isPresent
  isDirectory : PspBoot.Alike R a.isDirectory b.isDirectory
  size : PspBoot.Alike R a.size b.size
  readAt : ∀ offset len, PspBoot.Alike R (a.readAt offset len) (b.readAt offset len)
  lastFailure : PspBoot.Alike R a.lastFailure b.lastFailure
  failureCount : PspBoot.Alike R a.failureCount b.failureCount
  hasEntry : ∀ name, PspBoot.Alike R (a.hasEntry name) (b.hasEntry name)

theorem Source.Twins.refl (source : Source σ) : source.Twins Eq source :=
  ⟨.refl _, .refl _, .refl _, fun _ _ => .refl _, .refl _, .refl _, fun _ => .refl _⟩

/-- What is done to parts alike is done to the wholes alike, if the wholes are related through their
parts and whatever else does not change. -/
theorem Alike.lift {S : σ' → τ' → Prop} {focus : Focus σ' σ} {focus' : Focus τ' τ}
    {action : StateM σ α} {action' : StateM τ α}
    (hget : ∀ v w, S v w → R (focus.get v) (focus'.get w))
    (hput : ∀ v w s t, S v w → R s t → S (focus.put v s) (focus'.put w t))
    (h : Alike R action action') : Alike S (focus.lift action) (focus'.lift action') := by
  intro v w hvw
  obtain ⟨hresult, hstate⟩ := h _ _ (hget v w hvw)
  exact ⟨hresult, hput v w _ _ hvw hstate⟩

/-! ### Checks and reads that are repeated -/

namespace Retrying

theorem alike_repeatCheck {check : StateM σ (Option α)} {check' : StateM τ (Option α)}
    (hcount : Alike R a.failureCount b.failureCount) (hcheck : Alike R check check')
    (attempts : Nat) : Alike R (repeatCheck a check attempts) (repeatCheck b check' attempts) := by
  induction attempts with
  | zero => exact .pure none
  | succ attempts ih =>
    apply hcount.bind
    intro failures
    apply hcheck.bind
    intro found
    cases found with
    | some found => exact .pure _
    | none => exact hcount.bind fun failures' => .ite (.pure none) ih

theorem alike_readOn
    (hread : ∀ offset len, Alike R (a.readAt offset len) (b.readAt offset len))
    (size offset len attempts : Nat) (received : Bytes) :
    Alike R (readOn a size offset len attempts received)
      (readOn b size offset len attempts received) := by
  induction attempts generalizing received with
  | zero => exact .pure received
  | succ attempts ih => exact .ite (.pure received) ((hread _ _).bind fun chunk => ih _)

end Retrying

namespace Source.Twins

variable (h : a.Twins R b)
include h

/-- Whoever holds more than the sources holds twins. -/
theorem within {S : σ' → τ' → Prop} {focus : Focus σ' σ} {focus' : Focus τ' τ}
    (hget : ∀ v w, S v w → R (focus.get v) (focus'.get w))
    (hput : ∀ v w s t, S v w → R s t → S (focus.put v s) (focus'.put w t)) :
    (a.within focus).Twins S (b.within focus') where
  isPresent := h.isPresent.lift hget hput
  isDirectory := h.isDirectory.lift hget hput
  size := h.size.lift hget hput
  readAt offset len := (h.readAt offset len).lift hget hput
  lastFailure := h.lastFailure.lift hget hput
  failureCount := h.failureCount.lift hget hput
  hasEntry name := (h.hasEntry name).lift hget hput

/-- Twins whose calls are repeated are twins. -/
theorem retrying (policy : RetryPolicy) : (a.retrying policy).Twins R (b.retrying policy) := by
  have hsize : PspBoot.Alike R (Retrying.size policy a) (Retrying.size policy b) :=
    (Retrying.alike_repeatCheck h.failureCount (h.size.bind fun _ => .pure _) _).bind
      fun _ => .pure _
  refine { h with isPresent := ?_, size := hsize, readAt := fun offset len => ?_ }
  · exact (Retrying.alike_repeatCheck h.failureCount (h.isPresent.bind fun _ => .pure _) _).bind
      fun _ => .pure _
  · apply hsize.bind
    intro size
    exact (Retrying.alike_readOn h.readAt size offset len _ []).bind fun _ => .pure _

/-- Twins behind memory caches are twins. -/
theorem memoryCached (policy : MemoryPolicy) :
    (a.memoryCached policy).Twins (MemoryCache.Abreast R) (b.memoryCached policy) where
  isPresent := MemoryCache.alike_second h.isPresent
  isDirectory := MemoryCache.alike_second h.isDirectory
  size := MemoryCache.alike_size h.size
  readAt := MemoryCache.alike_readAt h.size h.readAt policy
  lastFailure := MemoryCache.alike_second h.lastFailure
  failureCount := MemoryCache.alike_second h.failureCount
  hasEntry name := MemoryCache.alike_second (h.hasEntry name)

/-- Twins are asked alike. -/
theorem ask (call : Call) : PspBoot.Alike R (a.ask call) (b.ask call) := by
  cases call with
  | isPresent => exact h.isPresent.bind fun _ => .pure _
  | isDirectory => exact h.isDirectory.bind fun _ => .pure _
  | size => exact h.size.bind fun _ => .pure _
  | readAt offset len => exact (h.readAt offset len).bind fun _ => .pure _

end Source.Twins

/-! ### Twins behind disk caches -/

section Storage

variable {S : σ × World η → τ × World θ → Prop} {inner : Source (σ × World η)}
  {inner' : Source (τ × World θ)} (h : inner.Twins S inner')
  (hsame : ∀ s t, S s t → s.2.storage = t.2.storage)
include h hsame

/-- Twins behind disk caches are twins. -/
theorem Source.Twins.diskCached
    (hput : ∀ s t kept, S s t → kept.lease? = s.2.storage.lease? →
      S (DiskCache.storage.put s kept) (DiskCache.storage.put t kept))
    (key : Option FilePath.Key) : (inner.diskCached key).Twins S (inner'.diskCached key) := by
  refine { h with size := ?_, readAt := DiskCache.alike_readAt hsame hput h.readAt key }
  apply (DiskCache.alike_storage hsame _ fun s t h => hput s t _ h rfl).bind
  intro store
  cases store with
  | some store => exact .pure store.size
  | none => exact h.size

/-- For twins with the same path the same store is opened. -/
theorem Source.Twins.openStore
    (hput : ∀ s t kept, S s t → S (DiskCache.storage.put s kept) (DiskCache.storage.put t kept))
    (hlocator : inner.locator.path = inner'.locator.path) (directory : String) :
    PspBoot.Alike S (DiskCache.openStore directory inner) (DiskCache.openStore directory inner') := by
  refine h.isPresent.bind fun present => .ite (.pure none) ?_
  refine h.isDirectory.bind fun isDirectory => .ite (.pure none) ?_
  refine h.size.bind fun size => .ite (.pure none) ?_
  rw [hlocator]
  exact DiskCache.alike_storage hsame _ fun s t h => hput s t _ h

end Storage

end PspBoot
