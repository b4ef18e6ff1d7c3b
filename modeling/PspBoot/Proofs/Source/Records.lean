import PspBoot.Proofs.Source.Recorded

/-!
# What an action adds to a record

`Records V recorded plain Q` compares an action on a state with the same action on a state that has
a record beside it.  The two have the same result and do the same to the state, and `Q` tells which
entries come to the record with which result.  The rules follow the way actions are put together, so
that what a function asks of a source is read off its text.
-/

namespace PspBoot

variable {σ γ α β : Type}

/-- Started in a state with the property `V`, beside any record, `recorded` ends as `plain` does,
keeps the property and adds the entries of which `Q` speaks. -/
def Records (V : σ → Prop) (recorded : StateM (List γ × σ) α) (plain : StateM σ α)
    (Q : α → List γ → Prop) : Prop :=
  ∀ log s, V s → ∃ entries,
    recorded (log, s) = ((plain s).1, (log ++ entries, (plain s).2)) ∧
      V (plain s).2 ∧ Q (plain s).1 entries

namespace Records

variable {V : σ → Prop} {recorded recorded' : StateM (List γ × σ) α} {plain plain' : StateM σ α}
  {Q Q' : α → List γ → Prop} {R : β → List γ → Prop}

theorem pure {a : α} (h : Q a []) : Records V (pure a) (pure a) Q := by
  intro log s hs
  exact ⟨[], by simp, hs, h⟩

/-- Of two actions the entries stand one behind the other. -/
theorem bind {next' : α → StateM (List γ × σ) β} {next : α → StateM σ β}
    (first : Records V recorded plain Q)
    (second : ∀ a before, Q a before →
      Records V (next' a) (next a) fun b after => R b (before ++ after)) :
    Records V (recorded >>= next') (plain >>= next) R := by
  intro log s hs
  obtain ⟨before, hrun, hV, hQ⟩ := first log s hs
  obtain ⟨after, hrest, hV', hR⟩ := second _ before hQ (log ++ before) _ hV
  refine ⟨before ++ after, ?_, hV', hR⟩
  simp [hrun, hrest]

theorem ite {p : Prop} [Decidable p] (yes : p → Records V recorded plain Q)
    (no : ¬p → Records V recorded' plain' Q) :
    Records V (if p then recorded else recorded') (if p then plain else plain') Q := by
  split
  · next hp => exact yes hp
  · next hp => exact no hp

theorem imp (h : Records V recorded plain Q) (himp : ∀ a entries, Q a entries → Q' a entries) :
    Records V recorded plain Q' := by
  intro log s hs
  obtain ⟨entries, hrun, hV, hQ⟩ := h log s hs
  exact ⟨entries, hrun, hV, himp _ _ hQ⟩

theorem and_result (h : Records V recorded plain Q) {P : α → Prop} (hP : ∀ s, V s → P (plain s).1) :
    Records V recorded plain fun a entries => Q a entries ∧ P a := by
  intro log s hs
  obtain ⟨entries, hrun, hV, hQ⟩ := h log s hs
  exact ⟨entries, hrun, hV, hQ, hP s hs⟩

/-- An action on the state alone adds nothing to the record. -/
theorem silent {action : StateM σ α} (h : ∀ s, V s → V (action s).2 ∧ Q (action s).1 []) :
    Records V (Focus.second.lift action) action Q := by
  intro log s hs
  exact ⟨[], by simp, h s hs⟩

/-- A read adds itself, with what came of it. -/
theorem readAt {source : Source σ} {offset len : Nat} {Q : Bytes → List SourceRead → Prop}
    (h : ∀ s, V s → V (source.readAt offset len s).2 ∧
      Q (source.readAt offset len s).1 [⟨offset, len, (source.readAt offset len s).1⟩]) :
    Records V (source.recorded.readAt offset len) (source.readAt offset len) Q := by
  intro log s hs
  exact ⟨_, rfl, h s hs⟩

theorem readExactly {source : Source σ} {offset len : Nat}
    {Q : Option Bytes → List SourceRead → Prop}
    (h : ∀ s, V s → V (source.readExactly offset len s).2 ∧
      Q (source.readExactly offset len s).1 [⟨offset, len, (source.readAt offset len s).1⟩]) :
    Records V (source.recorded.readExactly offset len) (source.readExactly offset len) Q := by
  intro log s hs
  exact ⟨_, rfl, h s hs⟩

end Records

end PspBoot
