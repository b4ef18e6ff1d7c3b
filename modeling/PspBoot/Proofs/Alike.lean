import PspBoot.Proofs.Outcome
import PspBoot.Source.Blocks

/-!
# Actions that cannot be told apart

Two actions on different states are alike if they give equal results from related states and lead
to related states.  What is built from actions in the same way is alike if the actions are.
-/

namespace PspBoot

variable {σ τ α β γ : Type}

/-- From related states, equal results and related states. -/
def Alike (R : σ → τ → Prop) (action : StateM σ α) (action' : StateM τ α) : Prop :=
  ∀ s t, R s t → (action s).1 = (action' t).1 ∧ R (action s).2 (action' t).2

/-- From related states, related results and related states. -/
def Corresponds (R : σ → τ → Prop) (Q : α → β → Prop) (action : StateM σ α)
    (action' : StateM τ β) : Prop :=
  ∀ s t, R s t → Q (action s).1 (action' t).1 ∧ R (action s).2 (action' t).2

namespace Corresponds

variable {R : σ → τ → Prop} {Q : β → γ → Prop}

theorem pure {b : β} {c : γ} (h : Q b c) : Corresponds R Q (pure b) (pure c) :=
  fun _ _ hst => ⟨h, hst⟩

/-- What follows on equal results. -/
theorem bind {action : StateM σ α} {action' : StateM τ α} {next : α → StateM σ β}
    {next' : α → StateM τ γ} (first : Alike R action action')
    (second : ∀ a, Corresponds R Q (next a) (next' a)) :
    Corresponds R Q (action >>= next) (action' >>= next') := by
  intro s t h
  obtain ⟨hresult, hstate⟩ := first s t h
  rw [run_bind, run_bind, ← hresult]
  exact second _ _ _ hstate

/-- The choice between two actions does not depend on the states. -/
theorem ite {p : Prop} [Decidable p] {yes no : StateM σ β} {yes' no' : StateM τ γ}
    (hyes : Corresponds R Q yes yes') (hno : Corresponds R Q no no') :
    Corresponds R Q (if p then yes else no) (if p then yes' else no') := by
  by_cases hp : p
  · rw [if_pos hp, if_pos hp]
    exact hyes
  · rw [if_neg hp, if_neg hp]
    exact hno

end Corresponds

namespace Alike

variable {R : σ → τ → Prop}

/-- No action can be told from itself. -/
theorem refl (action : StateM σ α) : Alike Eq action action := by
  rintro s _ rfl
  exact ⟨rfl, rfl⟩

theorem pure (a : α) : Alike R (pure a) (pure a) :=
  Corresponds.pure rfl

theorem bind {action : StateM σ α} {action' : StateM τ α} {next : α → StateM σ β}
    {next' : α → StateM τ β} (first : Alike R action action')
    (second : ∀ a, Alike R (next a) (next' a)) : Alike R (action >>= next) (action' >>= next') :=
  Corresponds.bind first second

theorem ite {p : Prop} [Decidable p] {yes no : StateM σ α} {yes' no' : StateM τ α}
    (hyes : Alike R yes yes') (hno : Alike R no no') :
    Alike R (if p then yes else no) (if p then yes' else no') :=
  Corresponds.ite hyes hno

end Alike

/-- Reads put together from blocks that are alike are alike. -/
theorem BlockGrid.alike_collect {R : σ → τ → Prop} {grid : BlockGrid}
    {fetch : Nat → StateM σ Bytes} {fetch' : Nat → StateM τ Bytes}
    (hfetch : ∀ index, Alike R (fetch index) (fetch' index)) (offset stop count index : Nat) :
    Alike R (grid.collect fetch offset stop count index)
      (grid.collect fetch' offset stop count index) := by
  induction count generalizing index with
  | zero => exact .pure []
  | succ count ih =>
      apply (hfetch index).bind
      intro block
      refine .ite (.pure []) (.ite (.pure _) ?_)
      exact (ih (index + 1)).bind fun rest => .pure _

end PspBoot
