import PspBoot.Checked
import PspBoot.Proofs.Outcome

/-!
# Checked and plain actions

A checked action is judged by a plain one that does the same without limits.  `Followed` says of the
two, started in one state, that the checked action does what the plain one does.  There is one way
out of it: a state of the plain action may be *spent*, which is how a clock is treated that has run
out of its range.  Once spent, a state stays so, and the checked action stops just if the plain one
ends in a spent state.

Most actions have no clock, and for them no state is spent (`Untimed`).  So whoever transcribes such
an action with every step checked, and shows that the transcript is followed, has shown that no
operation leaves the range of a word.
-/

namespace PspBoot

namespace Checked

variable {σ τ α : Type}

/-- Below a bound that is a word, no sum has to be cut down. -/
theorem min_addSaturating {bound : Nat} (h : bound < UInt64.size) (a b : Nat) :
    min (addSaturating a b) bound = min (a + b) bound := by
  rw [addSaturating]
  omega

/-- An action that does not stop is followed by the next one. -/
theorem run_bind_of {β : Type} {action : Checked σ α} {next : α → Checked σ β} {s t : σ} {a : α}
    (h : action.run s = (some a, t)) : (action >>= next).run s = (next a).run t := by
  rw [OptionT.run_bind]
  change ((action.run s).1.elim (pure none) fun a => (next a).run) (action.run s).2 = _
  rw [h]
  rfl

/-- An action that stops is followed by nothing. -/
theorem run_bind_of_none {β : Type} {action : Checked σ α} {next : α → Checked σ β} {s : σ}
    (h : (action.run s).1 = none) : ((action >>= next).run s).1 = none := by
  rw [OptionT.run_bind]
  change (((action.run s).1.elim (pure none) fun a => (next a).run) (action.run s).2).1 = none
  rw [h]
  rfl

theorem run_lift_of {action : StateM σ α} {s t : σ} {a : α} (h : action s = (a, t)) :
    (lift action).run s = (some a, t) := by
  change (some (action s).1, (action s).2) = _
  rw [h]

theorem run_fit {n : Nat} (h : n < UInt64.size) (s : σ) : (fit n).run s = (some n, s) := by
  rw [fit, if_pos h]
  rfl

theorem run_fit_of_le {n : Nat} (h : UInt64.size ≤ n) (s : σ) :
    ((fit n : Checked σ Nat).run s).1 = none := by
  rw [fit, if_neg (Nat.not_lt.mpr h)]
  rfl

theorem run_add {a b : Nat} (h : a + b < UInt64.size) (s : σ) :
    (add a b).run s = (some (a + b), s) :=
  run_fit h s

theorem run_mul {a b : Nat} (h : a * b < UInt64.size) (s : σ) :
    (mul a b).run s = (some (a * b), s) :=
  run_fit h s

theorem run_sub {a b : Nat} (h : b ≤ a) (s : σ) : (sub a b).run s = (some (a - b), s) := by
  rw [sub, if_pos h]
  rfl

theorem run_reserve {room : Nat} (h : room ≤ maxRoom) (s : σ) :
    (reserve room).run s = (some (), s) := by
  rw [reserve, if_pos h]
  rfl

theorem run_reserve_of_lt {room : Nat} (h : maxRoom < room) (s : σ) :
    ((reserve room : Checked σ Unit).run s).1 = none := by
  rw [reserve, if_neg (Nat.not_le.mpr h)]
  rfl

theorem run_within (focus : Focus τ σ) (action : Checked σ α) (w : τ) :
    (action.within focus).run w =
      ((action.run (focus.get w)).1, focus.put w (action.run (focus.get w)).2) := rfl

theorem within_pure (focus : Focus τ σ) [focus.Lawful] (a : α) :
    (pure a : Checked σ α).within focus = pure a :=
  congrArg OptionT.mk (focus.lift_pure (some a))

/-- Two actions on the part, one after the other, are one action on the part. -/
theorem within_bind {β : Type} (focus : Focus τ σ) [focus.Lawful] (action : Checked σ α)
    (next : α → Checked σ β) :
    (action >>= next).within focus = action.within focus >>= fun a => (next a).within focus := by
  apply OptionT.ext
  rw [OptionT.run_bind]
  change focus.lift (action >>= next).run = focus.lift action.run >>= _
  rw [OptionT.run_bind, Option.elimM, Focus.lift_bind]
  congr 1
  funext a?
  cases a? with
  | none => exact focus.lift_pure none
  | some a => rfl

end Checked

/-- No state is spent. -/
def Untimed {σ : Type} (_ : σ) : Prop := False

/-- Started in the state `s`, the checked action does what the plain action does, which keeps the
property `V` and has a result as `Q` says; but if the plain action ends in a spent state, the checked
one stops. -/
structure Followed {σ α : Type} (V spent : σ → Prop) (checked : Checked σ α) (plain : StateM σ α)
    (Q : α → Prop) (s : σ) : Prop where
  run : ¬spent (plain s).2 → checked.run s = (some (plain s).1, (plain s).2)
  stops : ¬spent s → spent (plain s).2 → (checked.run s).1 = none
  stays : spent s → spent (plain s).2
  outcome : Outcome V (fun _ => True) (fun a _ => Q a) s (plain s)

/-- From every state with the property `V` the checked action does what the plain one does. -/
def Follows {σ α : Type} (V : σ → Prop) (checked : Checked σ α) (plain : StateM σ α)
    (Q : α → Prop) : Prop :=
  ∀ s, V s → Followed V Untimed checked plain Q s

variable {σ τ α β : Type} {V spent : σ → Prop} {Q Q' : α → Prop} {R : β → Prop} {s : σ}

namespace Followed

theorem pure {a : α} (hV : V s) (hQ : Q a) : Followed V spent (pure a) (pure a) Q s where
  run _ := rfl
  stops hs ht := absurd ht hs
  stays hs := hs
  outcome := .same hV hQ

theorem imp {checked : Checked σ α} {plain : StateM σ α} (h : Followed V spent checked plain Q s)
    (himp : ∀ a, Q a → Q' a) : Followed V spent checked plain Q' s where
  run := h.run
  stops := h.stops
  stays := h.stays
  outcome := h.outcome.imp fun a _ _ => himp a

/-- Whether an action is followed does not depend on what is known of its outcome. -/
theorem forget {checked : Checked σ α} {plain : StateM σ α}
    (h : Followed V spent checked plain Q s) :
    Followed (fun _ => True) spent checked plain (fun _ => True) s where
  run := h.run
  stops := h.stops
  stays := h.stays
  outcome := ⟨trivial, id, trivial⟩

/-- An action without a clock leaves the clock of others alone. -/
theorem steady {checked : Checked σ α} {plain : StateM σ α}
    (h : Followed V Untimed checked plain Q s) (hsame : spent (plain s).2 ↔ spent s) :
    Followed V spent checked plain Q s where
  run _ := h.run id
  stops hs ht := absurd (hsame.mp ht) hs
  stays := hsame.mpr
  outcome := h.outcome

/-- Two actions, one after the other, of which the second starts where the first one ends. -/
theorem seq {checked : Checked σ α} {plain : StateM σ α} {next : α → Checked σ β}
    {next' : α → StateM σ β} (first : Followed V spent checked plain Q s)
    (rest : Followed V spent (next (plain s).1) (next' (plain s).1) R (plain s).2) :
    Followed V spent (checked >>= next) (plain >>= next') R s := by
  constructor
  case run =>
    intro hlast
    rw [Checked.run_bind_of (first.run fun hmiddle => hlast (rest.stays hmiddle))]
    exact rest.run hlast
  case stops =>
    intro hs hlast
    by_cases hmiddle : spent (plain s).2
    · exact Checked.run_bind_of_none (first.stops hs hmiddle)
    · rw [Checked.run_bind_of (first.run hmiddle)]
      exact rest.stops hmiddle hlast
  case stays => exact fun hs => rest.stays (first.stays hs)
  case outcome => exact ⟨rest.outcome.valid, fun _ => trivial, rest.outcome.post⟩

/-- The same, where the second action is followed from wherever the first one may end. -/
theorem bind {checked : Checked σ α} {plain : StateM σ α} {next : α → Checked σ β}
    {next' : α → StateM σ β} (first : Followed V spent checked plain Q s)
    (second : ∀ a t, V t → Q a → Followed V spent (next a) (next' a) R t) :
    Followed V spent (checked >>= next) (plain >>= next') R s :=
  first.seq (second _ _ first.outcome.valid first.outcome.post)

theorem ite {p : Prop} [Decidable p] {yes no : Checked σ α} {yes' no' : StateM σ α}
    (hyes : p → Followed V spent yes yes' Q s) (hno : ¬p → Followed V spent no no' Q s) :
    Followed V spent (if p then yes else no) (if p then yes' else no') Q s := by
  by_cases hp : p
  · rw [if_pos hp, if_pos hp]
    exact hyes hp
  · rw [if_neg hp, if_neg hp]
    exact hno hp

/-- An action without a limit is followed by itself. -/
theorem lift {action : StateM σ α}
    (h : Outcome V (fun _ => True) (fun a _ => Q a) s (action s)) :
    Followed V Untimed (Checked.lift action) action Q s where
  run _ := rfl
  stops _ ht := ht.elim
  stays hs := hs.elim
  outcome := h

/-- An action that leaves the state as it is only tells something. -/
theorem peek {γ : Type} {action : StateM σ γ} {c : γ} {next : γ → Checked σ β}
    {next' : γ → StateM σ β} (h : action s = (c, s))
    (rest : Followed V spent (next c) (next' c) R s) :
    Followed V spent (Checked.lift action >>= next) (action >>= next') R s := by
  have hchecked : (Checked.lift action >>= next).run s = (next c).run s :=
    Checked.run_bind_of (Checked.run_lift_of h)
  have hplain : (action >>= next') s = next' c s := by rw [run_bind, h]
  constructor
  · rw [hchecked, hplain]
    exact rest.run
  · rw [hchecked, hplain]
    exact rest.stops
  · rw [hplain]
    exact rest.stays
  · rw [hplain]
    exact rest.outcome

/-- To look at a part of the state is no action of its own. -/
theorem look {part : Type} {focus : Focus σ part} [focus.Lawful] {next : part → Checked σ β}
    {next' : part → StateM σ β}
    (h : Followed V spent (next (focus.get s)) (next' (focus.get s)) R s) :
    Followed V spent (Checked.lift (focus.lift get) >>= next) (focus.lift get >>= next') R s := by
  have hput : focus.put s (focus.get s) = s := Focus.Lawful.put_get s
  exact peek (congrArg (Prod.mk (focus.get s)) hput) h

/-! ### Arithmetic

A check of a checked action has no counterpart in the plain one. -/

section Arithmetic

variable {a b : Nat} {γ : Type} {next : Nat → Checked σ β} {plain : StateM σ β}

theorem compute {operation : Checked σ γ} {c : γ} {next : γ → Checked σ β}
    (h : operation.run s = (some c, s)) (rest : Followed V spent (next c) plain R s) :
    Followed V spent (operation >>= next) plain R s where
  run := by
    rw [Checked.run_bind_of h]
    exact rest.run
  stops := by
    rw [Checked.run_bind_of h]
    exact rest.stops
  stays := rest.stays
  outcome := rest.outcome

theorem add (h : a + b < UInt64.size) (rest : Followed V spent (next (a + b)) plain R s) :
    Followed V spent (Checked.add a b >>= next) plain R s :=
  compute (Checked.run_add h s) rest

theorem mul (h : a * b < UInt64.size) (rest : Followed V spent (next (a * b)) plain R s) :
    Followed V spent (Checked.mul a b >>= next) plain R s :=
  compute (Checked.run_mul h s) rest

theorem sub (h : b ≤ a) (rest : Followed V spent (next (a - b)) plain R s) :
    Followed V spent (Checked.sub a b >>= next) plain R s :=
  compute (Checked.run_sub h s) rest

theorem reserve {next : Unit → Checked σ β} (h : a ≤ Checked.maxRoom)
    (rest : Followed V spent (next ()) plain R s) :
    Followed V spent (Checked.reserve a >>= next) plain R s :=
  compute (Checked.run_reserve h s) rest

end Arithmetic

/-- What follows on a part of a state, follows on the whole; what does not depend on the part stays
as it was. -/
theorem within {w : τ} (focus : Focus τ σ) [focus.Lawful] {frame : τ → Prop}
    (hframe : ∀ w p, frame w → frame (focus.put w p)) {checked : Checked σ α}
    {plain : StateM σ α} (h : Followed V Untimed checked plain Q (focus.get w)) (hw : frame w) :
    Followed (fun w => V (focus.get w) ∧ frame w) Untimed (checked.within focus) (focus.lift plain)
      Q w where
  run _ := by rw [Checked.run_within, h.run id, Focus.lift_run]
  stops _ ht := ht.elim
  stays hs := hs.elim
  outcome := by
    have hget : focus.get (focus.lift plain w).2 = (plain (focus.get w)).2 :=
      Focus.Lawful.get_put w _
    refine ⟨⟨?_, hframe w _ hw⟩, id, h.outcome.post⟩
    rw [hget]
    exact h.outcome.valid

end Followed

theorem Follows.imp {checked : Checked σ α} {plain : StateM σ α} (h : Follows V checked plain Q)
    (himp : ∀ a, Q a → Q' a) : Follows V checked plain Q' :=
  fun s hs => (h s hs).imp himp

end PspBoot
