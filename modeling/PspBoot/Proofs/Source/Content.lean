import PspBoot.Proofs.Outcome
import PspBoot.Source.Basic

/-!
# Sources that show a content

`source.Shows content reach V E` says that a source is a file of the given content, as far as it
can be known: in every state with the property `V` it is present, has the length of the content,
and answers every read with at least `reach` bytes of the right window, or all of it, unless there
is the excuse `E`.  With the excuse `False` nothing may go wrong; with the excuse `True` anything
may be missing, but no byte may be wrong.

`Source.ofContent` is the plain source of a content.
-/

namespace PspBoot

variable {σ τ : Type}

/-- Reads that deliver a content. -/
def ReadsFrom (content : Bytes) (reach : Nat) (V E : σ → Prop)
    (read : (offset len : Nat) → StateM σ Bytes) : Prop :=
  ∀ offset len, Ensures V E (read offset len) fun data s =>
    Delivered reach (Bytes.slice content offset len) data (E s)

namespace Source

/-- What a source has to do in order to pass for a file of the given content. -/
structure Shows (source : Source σ) (content : Bytes) (reach : Nat) (V E : σ → Prop) : Prop where
  isPresent : Ensures V E source.isPresent fun yes s => yes = true ∨ E s
  isDirectory : Ensures V E source.isDirectory fun yes _ => yes = false
  size : Ensures V E source.size fun n s => n = content.length ∨ n = 0 ∧ E s
  readAt : ReadsFrom content reach V E source.readAt
  failureCount : Ensures V E source.failureCount fun _ _ => True
  hasEntry : ∀ name, Ensures V E (source.hasEntry name) fun yes _ => yes = false

/-- The source that has a content and never fails. -/
def ofContent (locator : Locator) (content : Bytes) : Source Unit where
  locator := locator
  isPresent := pure true
  isDirectory := pure false
  size := pure content.length
  readAt offset len := pure (Bytes.slice content offset len)
  lastFailure := pure none

namespace Shows

variable {source : Source σ} {content : Bytes} {reach : Nat} {V E : σ → Prop}

/-- A source that shows a content goes on doing so for the holder of a larger state, and touches
nothing of it that is not its own. -/
theorem within (h : source.Shows content reach V E) (focus : Focus τ σ) [focus.Lawful]
    (frame : τ → Prop) (hframe : ∀ w p, frame w → frame (focus.put w p)) :
    (source.within focus).Shows content reach (fun w => V (focus.get w) ∧ frame w)
      (fun w => E (focus.get w)) where
  isPresent := h.isPresent.lift focus hframe
  isDirectory := h.isDirectory.lift focus hframe
  size := h.size.lift focus hframe
  readAt offset len := (h.readAt offset len).lift focus hframe
  failureCount := h.failureCount.lift focus hframe
  hasEntry name := (h.hasEntry name).lift focus hframe

/-- Where everything is excused a source may be said to reach anywhere. -/
theorem excused (h : source.Shows content reach V E) (hE : ∀ s, V s → E s) (reach' : Nat) :
    source.Shows content reach' V E where
  isPresent := h.isPresent
  isDirectory := h.isDirectory
  size := h.size
  readAt offset len :=
    (h.readAt offset len).imp fun _ s hV hdata => ⟨hdata.isPrefix, .inr (hE s hV)⟩
  failureCount := h.failureCount
  hasEntry := h.hasEntry

/-- Properties that amount to the same may be exchanged. -/
theorem congr (h : source.Shows content reach V E) {V' E' : σ → Prop}
    (hV : ∀ s, V' s ↔ V s) (hE : ∀ s, E' s ↔ E s) : source.Shows content reach V' E' := by
  obtain rfl : V' = V := funext fun s => propext (hV s)
  obtain rfl : E' = E := funext fun s => propext (hE s)
  exact h

end Shows

/-- The plain source shows its content. -/
theorem shows_ofContent (locator : Locator) (content : Bytes) (reach : Nat) :
    (ofContent locator content).Shows content reach (fun _ => True) (fun _ => False) where
  isPresent := .pure fun _ _ => .inl rfl
  isDirectory := .pure fun _ _ => rfl
  size := .pure fun _ _ => .inl rfl
  readAt _ _ := .pure fun _ _ => .whole
  failureCount := .pure fun _ _ => trivial
  hasEntry _ := .pure fun _ _ => rfl

/-! ### Files that never fail -/

/-- The source is a file that is there and has the given content, and every read of it delivers
what there is of the bytes that were asked for. -/
structure Presents (source : Source σ) (content : Bytes) (V : σ → Prop) : Prop where
  isPresent : Yields V source.isPresent true
  isDirectory : Yields V source.isDirectory false
  size : Yields V source.size content.length
  readAt : ∀ offset len, Yields V (source.readAt offset len) (Bytes.slice content offset len)

theorem presents_ofContent (locator : Locator) (content : Bytes) :
    (ofContent locator content).Presents content fun _ => True where
  isPresent := .pure true
  isDirectory := .pure false
  size := .pure content.length
  readAt _ _ := .pure _

/-- A read that needs all of its bytes. -/
theorem Presents.readExactly {source : Source σ} {content : Bytes} {V : σ → Prop}
    (h : source.Presents content V) (offset len : Nat) :
    Yields V (source.readExactly offset len) (Bytes.complete? content offset len) :=
  (h.readAt offset len).bind (.pure _)

end Source

end PspBoot
