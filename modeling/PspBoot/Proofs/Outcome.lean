import PspBoot.Focus
import PspBoot.Proofs.Windows

/-!
# What actions guarantee

An action on a state is judged by three things.  It keeps a property `V` of the state, it does not
take back an excuse `E` that has been given, and its result and final state are as `Q` says.  An
excuse is whatever may be held against a result that is not as good as it should be: that a
request failed, say, or that bytes were missing.  Excuses are kept so that one action may follow
another: a result assembled from several parts is excused by any of them.

Where the result is certain, `Yields` says which one it is.  `Delivered` is what is expected of a
read.
-/

namespace PspBoot

variable {σ τ α β : Type}

/-! ### Running an action

These equations run an action symbolically: together with a definition they turn it, applied to a
state, into its result and its final state. -/

@[simp] theorem run_pure (a : α) (s : σ) : (pure a : StateM σ α) s = (a, s) := rfl

@[simp] theorem run_bind (action : StateM σ α) (next : α → StateM σ β) (s : σ) :
    (action >>= next) s = next (action s).1 (action s).2 := rfl

@[simp] theorem run_map (f : α → β) (action : StateM σ α) (s : σ) :
    (f <$> action) s = (f (action s).1, (action s).2) := rfl

@[simp] theorem run_get (s : σ) : (get : StateM σ σ) s = (s, s) := rfl

@[simp] theorem run_set (s s' : σ) : (set s' : StateM σ PUnit) s = (⟨⟩, s') := rfl

@[simp] theorem run_modify (f : σ → σ) (s : σ) :
    (modify f : StateM σ PUnit) s = (⟨⟩, f s) := rfl

@[simp] theorem run_ite {p : Prop} [Decidable p] (yes no : StateM σ α) (s : σ) :
    (if p then yes else no) s = if p then yes s else no s := by
  split
  · rfl
  · rfl

/-! ### Guarantees -/

/-- The end of an action that was started in the state `s`. -/
structure Outcome (V E : σ → Prop) (Q : α → σ → Prop) (s : σ) (result : α × σ) : Prop where
  valid : V result.2
  excused : E s → E result.2
  post : Q result.1 result.2

/-- Started in any state with the property `V`, the action keeps `V` and `E` and ends as `Q`
says. -/
def Ensures (V E : σ → Prop) (action : StateM σ α) (Q : α → σ → Prop) : Prop :=
  ∀ s, V s → Outcome V E Q s (action s)

namespace Outcome

variable {V E : σ → Prop} {Q : α → σ → Prop} {R : β → σ → Prop} {s : σ}

/-- Two actions, one after the other. -/
theorem bind {action : StateM σ α} {next : α → StateM σ β}
    (first : Outcome V E Q s (action s))
    (second : ∀ a t, V t → Q a t → Outcome V E R t (next a t)) :
    Outcome V E R s ((action >>= next) s) := by
  have rest := second (action s).1 (action s).2 first.valid first.post
  constructor
  · exact rest.valid
  · intro hE
    exact rest.excused (first.excused hE)
  · exact rest.post

/-- A weaker account of the same end. -/
theorem imp {Q' : α → σ → Prop} {result : α × σ} (h : Outcome V E Q s result)
    (himp : ∀ a t, V t → Q a t → Q' a t) : Outcome V E Q' s result where
  valid := h.valid
  excused := h.excused
  post := himp _ _ h.valid h.post

theorem and {Q' : α → σ → Prop} {result : α × σ} (h : Outcome V E Q s result)
    (h' : Outcome V E Q' s result) : Outcome V E (fun a t => Q a t ∧ Q' a t) s result where
  valid := h.valid
  excused := h.excused
  post := ⟨h.post, h'.post⟩

/-- What is excused before an action is excused behind it. -/
theorem carry {P : Prop} {result : α × σ} (h : Outcome V E Q s result) (hexcuse : P ∨ E s) :
    Outcome V E (fun _ t => P ∨ E t) s result where
  valid := h.valid
  excused := h.excused
  post := hexcuse.imp_right h.excused

/-- An action that changes nothing. -/
theorem same {a : α} (hV : V s) (hQ : Q a s) : Outcome V E Q s (a, s) where
  valid := hV
  excused := id
  post := hQ

/-- To look at a part of the state is no action of its own. -/
theorem look {part : Type} {focus : Focus σ part} [focus.Lawful] {next : part → StateM σ β}
    (h : Outcome V E R s (next (focus.get s) s)) :
    Outcome V E R s ((focus.lift get >>= next) s) := by
  have hput : focus.put s (focus.get s) = s := Focus.Lawful.put_get s
  change Outcome V E R s (next (focus.get s) (focus.put s (focus.get s)))
  rw [hput]
  exact h

end Outcome

namespace Ensures

variable {V E : σ → Prop} {Q Q' : α → σ → Prop} {R : β → σ → Prop}

theorem pure {a : α} (h : ∀ s, V s → Q a s) : Ensures V E (pure a : StateM σ α) Q :=
  fun s hV => .same hV (h s hV)

theorem imp {action : StateM σ α} (h : Ensures V E action Q)
    (himp : ∀ a t, V t → Q a t → Q' a t) : Ensures V E action Q' :=
  fun s hV => (h s hV).imp himp

/-- What an action on a part guarantees, it guarantees for the whole; what does not depend on the
part stays as it was. -/
theorem lift {action : StateM σ α} (focus : Focus τ σ) [focus.Lawful] {frame : τ → Prop}
    (hframe : ∀ w p, frame w → frame (focus.put w p)) (h : Ensures V E action Q) :
    Ensures (fun w => V (focus.get w) ∧ frame w) (fun w => E (focus.get w)) (focus.lift action)
      fun a w => Q a (focus.get w) := by
  intro w hw
  have inner := h (focus.get w) hw.1
  have hget : focus.get (focus.lift action w).2 = (action (focus.get w)).2 :=
    Focus.Lawful.get_put w _
  constructor
  · rw [hget]
    exact ⟨inner.valid, hframe w _ hw.2⟩
  · rw [hget]
    exact inner.excused
  · rw [hget]
    exact inner.post

end Ensures

/-! ### Certain results -/

/-- In every state with the property `V` the action has the result `a` and keeps the property. -/
def Yields (V : σ → Prop) (action : StateM σ α) (a : α) : Prop :=
  ∀ s, V s → (action s).1 = a ∧ V (action s).2

namespace Yields

variable {V : σ → Prop}

theorem pure (a : α) : Yields V (pure a) a :=
  fun _ hs => ⟨rfl, hs⟩

theorem bind {action : StateM σ α} {next : α → StateM σ β} {a : α} {b : β}
    (first : Yields V action a) (second : Yields V (next a) b) :
    Yields V (action >>= next) b := by
  intro s hs
  obtain ⟨hresult, hnext⟩ := first s hs
  rw [run_bind, hresult]
  exact second _ hnext

theorem exists_bind {action : StateM σ α} {next : α → StateM σ β} {a : α} {P : β → Prop}
    (first : Yields V action a) (second : ∃ b, Yields V (next a) b ∧ P b) :
    ∃ b, Yields V (action >>= next) b ∧ P b := by
  obtain ⟨b, hnext, hb⟩ := second
  exact ⟨b, first.bind hnext, hb⟩

/-- The choice between two actions does not depend on the state. -/
theorem ite {p q : Prop} [Decidable p] [Decidable q] {yes no : StateM σ α} {a b : α}
    (hpq : p ↔ q) (hyes : Yields V yes a) (hno : Yields V no b) :
    Yields V (if p then yes else no) (if q then a else b) := by
  by_cases hp : p
  · rw [if_pos hp, if_pos (hpq.mp hp)]
    exact hyes
  · rw [if_neg hp, if_neg fun hq => hp (hpq.mpr hq)]
    exact hno

end Yields

/-! ### Reads -/

/-- What a read has to deliver of a window: a beginning of it, of `reach` bytes at least or else
all of it, unless there is an excuse. -/
structure Delivered (reach : Nat) (window data : Bytes) (excuse : Prop) : Prop where
  isPrefix : data <+: window
  reaches : min reach window.length ≤ data.length ∨ excuse

namespace Delivered

variable {reach : Nat} {window data : Bytes} {excuse : Prop}

/-- The whole window delivers as much as anyone can ask for. -/
theorem whole : Delivered reach window window excuse where
  isPrefix := List.prefix_refl _
  reaches := .inl (Nat.min_le_right _ _)

/-- The first bytes of a window are delivered by those who can do no more. -/
theorem take (reach : Nat) (window : Bytes) :
    Delivered reach window (window.take reach) excuse where
  isPrefix := List.take_prefix _ _
  reaches := .inl (Nat.le_of_eq List.length_take.symm)

/-- A window that is not longer than the reach is delivered as a whole. -/
theorem eq_or (h : Delivered reach window data excuse) (hlen : window.length ≤ reach) :
    data = window ∨ excuse := by
  rcases h.reaches with hreach | hexcuse
  · left
    apply h.isPrefix.eq_of_length_le
    omega
  · exact .inr hexcuse

theorem of_eq_or (isPrefix : data <+: window) (h : data = window ∨ excuse) :
    Delivered reach window data excuse := by
  constructor
  · exact isPrefix
  · rcases h with rfl | hexcuse
    · left
      apply Nat.min_le_right
    · exact .inr hexcuse

/-- Nothing at all needs an excuse. -/
theorem nil (hexcuse : excuse) : Delivered reach window [] excuse where
  isPrefix := List.nil_prefix
  reaches := .inr hexcuse

theorem imp {excuse' : Prop} (h : Delivered reach window data excuse)
    (himp : excuse → excuse') : Delivered reach window data excuse' where
  isPrefix := h.isPrefix
  reaches := h.reaches.imp_right himp

end Delivered

end PspBoot
