import PspBoot.Image.Identify
import PspBoot.Proofs.Source.Alike

/-!
# Sources that are alike are identified alike

Identification asks nothing of a source but its operations, and little of its locator, so it cannot
tell two sources apart that answer alike and whose locators look alike.  In particular a source that
shows a content without excuse is identified as the plain source of that content.
-/

namespace PspBoot

variable {σ τ : Type} {R : σ → τ → Prop} {a : Source σ} {b : Source τ}

/-- Of two locators the same is read off, as far as identification goes. -/
structure Locator.LooksLike (locator other : Locator) : Prop where
  isEmpty_eq : locator.isEmpty = other.isEmpty
  size_eq : locator.size = other.size
  filename_eq : locator.filename = other.filename
  extension_eq : locator.extension = other.extension
  contains_eq : ∀ needle, locator.contains needle = other.contains needle

/-- From related states all questions that have to do with the target are answered alike, and the
locators look alike. -/
structure Source.Resembles (R : σ → τ → Prop) (a : Source σ) (b : Source τ) : Prop where
  locator : a.locator.LooksLike b.locator
  isPresent : PspBoot.Alike R a.isPresent b.isPresent
  isDirectory : PspBoot.Alike R a.isDirectory b.isDirectory
  size : PspBoot.Alike R a.size b.size
  readAt : ∀ offset len, PspBoot.Alike R (a.readAt offset len) (b.readAt offset len)
  hasEntry : ∀ name, PspBoot.Alike R (a.hasEntry name) (b.hasEntry name)

/-- What has been found of the targets on two paths: the same kind, or the same error with the path
of each. -/
inductive SameFinding (path other : String) :
    Except IdentifyError ImageKind → Except IdentifyError ImageKind → Prop
  | kind (kind : ImageKind) : SameFinding path other (.ok kind) (.ok kind)
  | invalidPath : SameFinding path other (.error (.invalidPath path)) (.error (.invalidPath other))
  | notFound : SameFinding path other (.error (.notFound path)) (.error (.notFound other))
  | unreadable : SameFinding path other (.error .unreadable) (.error .unreadable)

/-- On the same path the same has been found. -/
theorem SameFinding.eq {path : String} {found found' : Except IdentifyError ImageKind}
    (h : SameFinding path path found found') : found = found' := by
  cases h with
  | kind | invalidPath | notFound | unreadable => rfl

namespace Source.Resembles

variable (h : Source.Resembles R a b)
include h

theorem readExactly (offset len : Nat) :
    PspBoot.Alike R (a.readExactly offset len) (b.readExactly offset len) :=
  (h.readAt offset len).bind fun _ => .pure _

theorem readWord (offset : Nat) : PspBoot.Alike R (a.readWord offset) (b.readWord offset) := by
  apply (h.readExactly offset 4).bind
  intro data
  cases data with
  | none => exact .pure 0
  | some data => exact .pure _

theorem hasPs1Category :
    PspBoot.Alike R (Identify.hasPs1Category a) (Identify.hasPs1Category b) := by
  have hread : PspBoot.Alike R (ContainerHeader.read? a) (ContainerHeader.read? b) :=
    (h.readExactly _ _).bind fun _ => .pure _
  have hpart (header : ContainerHeader) (part : ContainerPart) :
      PspBoot.Alike R (header.part? a part) (header.part? b part) := by
    apply h.size.bind
    intro size
    cases header.span? part size with
    | none => exact .pure none
    | some span => exact .ite (.pure none) (h.readExactly _ _)
  apply hread.bind
  intro header
  cases header with
  | none => exact .pure false
  | some header =>
    apply (hpart header .parameters).bind
    intro blob
    cases blob with
    | none => exact .pure false
    | some blob =>
      dsimp only
      cases ParameterFile.parse? blob with
      | none => exact .pure false
      | some file => exact .pure _

theorem container : PspBoot.Alike R (Identify.container a) (Identify.container b) := by
  unfold Identify.container
  rw [h.locator.contains_eq]
  refine h.hasPs1Category.bind fun isPs1 => .ite (.pure _) ?_
  apply (h.readWord _).bind
  intro offset
  apply (h.readExactly _ _).bind
  intro tag
  exact .ite (.pure _) (.ite (.pure _) (.ite (.pure _) (.pure _)))

theorem byHead (head : Bytes) :
    PspBoot.Alike R (Identify.byHead a head) (Identify.byHead b head) := by
  unfold Identify.byHead Identify.executable
  rw [h.locator.extension_eq, h.locator.filename_eq]
  cases Signature.ofHead? head with
  | none => exact .pure _
  | some format =>
    cases format with
    | zip | rar | executable => exact .pure _
    | container => exact h.container

theorem directory : PspBoot.Alike R (Identify.directory a) (Identify.directory b) := by
  unfold Identify.directory
  rw [h.locator.size_eq]
  refine .ite (.pure _) ((h.hasEntry _).bind fun _ => .ite (.pure _) ?_)
  refine (h.hasEntry _).bind fun _ => .ite (.pure _) ?_
  exact (h.hasEntry _).bind fun _ => .ite (.pure _) (.pure _)

theorem byContent (path other : String) :
    PspBoot.Corresponds R (SameFinding path other) (Identify.byContent a)
      (Identify.byContent b) := by
  refine .bind h.isDirectory fun isDirectory => .ite ?_ ?_
  · exact .bind h.directory fun kind => .pure (.kind kind)
  · refine .bind (h.readAt _ _) fun head => .bind h.size fun size => .ite (.pure .unreadable) ?_
    exact .bind (h.byHead head) fun kind => .pure (.kind kind)

theorem discFile : PspBoot.Alike R (Identify.discFile a) (Identify.discFile b) := by
  refine h.size.bind fun size => .ite ?_ (.pure _)
  exact (h.readExactly _ _).bind fun _ => .ite (.pure _) (.pure _)

/-- **Sources that resemble each other are identified alike.** -/
theorem identify :
    PspBoot.Corresponds R (SameFinding a.locator.path b.locator.path) (PspBoot.identify a)
      (PspBoot.identify b) := by
  unfold PspBoot.identify
  rw [h.locator.isEmpty_eq, h.locator.extension_eq]
  refine .ite (.pure .invalidPath) (.bind h.isPresent fun isPresent => .ite (.pure .notFound) ?_)
  split
  · exact .bind h.discFile fun kind => .pure (.kind kind)
  · exact .pure (.kind _)
  · exact .pure (.kind _)
  · exact .bind (h.readExactly _ _) fun _ => .ite (.pure (.kind _)) (h.byContent _ _)
  · exact h.byContent _ _

end Source.Resembles

/-- Sources that are alike resemble each other. -/
theorem Source.Alike.resembles (h : Source.Alike R a b) : Source.Resembles R a b where
  locator := by
    rw [h.locator_eq]
    exact ⟨rfl, rfl, rfl, rfl, fun _ => rfl⟩
  isPresent := h.isPresent
  isDirectory := h.isDirectory
  size := h.size
  readAt := h.readAt
  hasEntry := h.hasEntry

/-- **Sources that are alike are identified alike.** -/
theorem Source.Alike.alike_identify (h : Source.Alike R a b) :
    PspBoot.Alike R (identify a) (identify b) := by
  intro s t hst
  obtain ⟨hfound, hnext⟩ := h.resembles.identify s t hst
  rw [h.locator_eq] at hfound
  exact ⟨hfound.eq, hnext⟩

/-- To identify a source within a larger state is to identify the source. -/
theorem identify_within (source : Source σ) (focus : Focus τ σ) [focus.Lawful] :
    identify (source.within focus) = focus.lift (identify source) := by
  funext w
  have hstart : w = focus.put w (focus.get w) := (Focus.Lawful.put_get w).symm
  obtain ⟨hresult, hstate⟩ := (source.alike_within focus w).alike_identify w (focus.get w) hstart
  exact Prod.ext hresult hstate

end PspBoot
