import PspBoot.Image.Survey
import PspBoot.Proofs.Image.Identify
import PspBoot.Proofs.Locator.Spelling
import PspBoot.Proofs.Source.Content
import PspBoot.Proofs.Source.Rechecks
import PspBoot.Proofs.Source.Twins

/-!
# Identification does not mind the spelling of separators

Twins on respelled locators are identified alike (`Layer.identify_respelled`): they are asked the same
questions, and if they answer alike the same is found.
-/

namespace PspBoot

variable {σ τ η θ : Type} {R : σ → τ → Prop} {a : Source σ} {b : Source τ}

/-- Respelled locators look alike. -/
theorem Locator.Respelled.looksLike {locator other : Locator} (h : locator.Respelled other) :
    locator.LooksLike other :=
  ⟨h.isEmpty_eq, h.size_eq, h.filename_eq, h.extension_eq, h.contains_eq⟩

namespace Source

/-- Twins resemble each other if their locators do. -/
theorem Twins.resembles (h : a.Twins R b) (hlocator : a.locator.LooksLike b.locator) :
    a.Resembles R b :=
  { h with locator := hlocator }

/-- Whoever asks two sources that resemble each other in the same way hears the same. -/
theorem Resembles.overheard (h : a.Resembles R b) :
    a.overheard.Resembles (fun x y => x.1 = y.1 ∧ R x.2 y.2) b.overheard := by
  have hhear {α : Type} (call : Call) (answer : α → Answer) {action : StateM σ α}
      {action' : StateM τ α} (halike : PspBoot.Alike R action action') :
      PspBoot.Alike (fun x y => x.1 = y.1 ∧ R x.2 y.2) (overhear call answer action)
        (overhear call answer action') := by
    rintro ⟨log, s⟩ ⟨_, t⟩ ⟨rfl, hst⟩
    obtain ⟨hresult, hnext⟩ := halike s t hst
    refine ⟨hresult, ?_, hnext⟩
    change log ++ [(call, answer (action s).1)] = log ++ [(call, answer (action' t).1)]
    rw [hresult]
  refine ⟨h.locator, hhear _ _ h.isPresent, hhear _ _ h.isDirectory, hhear _ _ h.size,
    fun offset len => hhear _ _ (h.readAt offset len), fun name => ?_⟩
  exact (h.hasEntry name).lift (fun _ _ hxy => hxy.2) fun _ _ _ _ hxy hnext => ⟨hxy.1, hnext⟩

end Source

namespace Layer

/-- The questions that are asked in order to identify a layer, with the answers. -/
def questions (layer : Layer η) (world : World η) : List (Call × Answer) :=
  (PspBoot.identify layer.chain.source.overheard ([], (layer.state, world))).2.1

/-- In their worlds the layers do the same. -/
def DoesAs (layer : Layer η) (world : World η) (other : Layer θ) (world' : World θ) : Prop :=
  ∃ R, layer.chain.source.Twins R other.chain.source ∧ R (layer.state, world) (other.state, world')

/-- Two layers on one content do the same, wherever it is. -/
theorem doesAs_ofContent (locator other : Locator) (content : Bytes) (world : World Unit) :
    (supplied (.ofContent locator content)).DoesAs world
      (.supplied (.ofContent other content)) world := by
  have htwins : (Source.ofContent locator content).Twins Eq (.ofContent other content) :=
    { Source.Twins.refl (.ofContent locator content) with }
  refine ⟨Eq, htwins.within ?_ ?_, rfl⟩
  · rintro v _ rfl
    rfl
  · rintro v _ s _ rfl rfl
    rfl

/-- **Two layers that do the same on respelled locators are identified alike**: they are asked the
same questions, and the same is found. -/
theorem identify_respelled {layer : Layer η} {other : Layer θ} {world : World η} {world' : World θ}
    (hsame : layer.DoesAs world other world') (h : layer.locator.Respelled other.locator) :
    SameFinding layer.locator.path other.locator.path (layer.identify world).1.1
        (other.identify world').1.1 ∧
      layer.questions world = other.questions world' := by
  obtain ⟨R, htwins, hstart⟩ := hsame
  rw [locator, locator, ← Chain.locator_source, ← Chain.locator_source] at h ⊢
  have hresembles := htwins.resembles h.looksLike
  exact ⟨(hresembles.identify _ _ hstart).1,
    (hresembles.overheard.identify ([], _) ([], _) ⟨rfl, hstart⟩).2.1⟩

end Layer

end PspBoot
