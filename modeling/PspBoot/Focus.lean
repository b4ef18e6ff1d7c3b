/-!
# Working on a part of a state

A source acts on its own small state, while whoever holds the source has a larger one.  A `Focus`
says how the part sits in the whole, and carries an action on the part to an action on the whole.

A focus is lawful if a part that was replaced is read back, a part replaced by itself leaves the
whole as it was, and of two replacements the last one counts.  Then an action that does nothing to
the part does nothing to the whole, and actions on the part run one after the other as they do by
themselves (`lift_pure`, `lift_bind`).
-/

namespace PspBoot

/-- A part of a state that can be read and replaced. -/
structure Focus (whole part : Type) where
  get : whole → part
  put : whole → part → whole

namespace Focus

variable {whole part α β : Type}

/-- The laws of reading and replacing a part. -/
class Lawful (focus : Focus whole part) : Prop where
  get_put : ∀ w p, focus.get (focus.put w p) = p := by intros; rfl
  put_get : ∀ w, focus.put w (focus.get w) = w := by intros; rfl
  put_put : ∀ w p q, focus.put (focus.put w p) q = focus.put w q := by intros; rfl

/-- The action on the part, as an action on the whole. -/
def lift (focus : Focus whole part) (action : StateM part α) : StateM whole α :=
  fun w =>
    let result := action (focus.get w)
    (result.1, focus.put w result.2)

/-- The second component of a pair. -/
def second : Focus (whole × part) part where
  get := Prod.snd
  put w p := (w.1, p)

instance : (second : Focus (whole × part) part).Lawful where

/-- The first component of a pair. -/
def first : Focus (part × whole) part where
  get := Prod.fst
  put w p := (p, w.2)

instance : (first : Focus (part × whole) part).Lawful where

@[simp] theorem get_first (w : part × whole) : first.get w = w.1 := rfl

@[simp] theorem put_first (w : part × whole) (p : part) : first.put w p = (p, w.2) := rfl

@[simp] theorem get_second (w : whole × part) : second.get w = w.2 := rfl

@[simp] theorem put_second (w : whole × part) (p : part) : second.put w p = (w.1, p) := rfl

@[simp] theorem lift_run (focus : Focus whole part) (action : StateM part α) (w : whole) :
    focus.lift action w = ((action (focus.get w)).1, focus.put w (action (focus.get w)).2) := rfl

/-- An action that does nothing to the part does nothing to the whole. -/
theorem lift_pure (focus : Focus whole part) [focus.Lawful] (a : α) :
    focus.lift (pure a) = (pure a : StateM whole α) := by
  funext w
  rw [lift_run]
  exact congrArg (Prod.mk a) (Lawful.put_get w)

/-- Two actions on the part, one after the other, are one action on the part. -/
theorem lift_bind (focus : Focus whole part) [focus.Lawful] (action : StateM part α)
    (next : α → StateM part β) :
    focus.lift (action >>= next) = focus.lift action >>= fun a => focus.lift (next a) := by
  funext w
  have hget : focus.get (focus.put w (action (focus.get w)).2) = (action (focus.get w)).2 :=
    Lawful.get_put w _
  have hput : ∀ q, focus.put (focus.put w (action (focus.get w)).2) q = focus.put w q :=
    Lawful.put_put w _
  change ((next (action (focus.get w)).1 (action (focus.get w)).2).1,
      focus.put w (next (action (focus.get w)).1 (action (focus.get w)).2).2) =
    ((next (action (focus.get w)).1 (focus.get (focus.put w (action (focus.get w)).2))).1,
      focus.put (focus.put w (action (focus.get w)).2)
        (next (action (focus.get w)).1 (focus.get (focus.put w (action (focus.get w)).2))).2)
  rw [hget, hput]

end Focus

end PspBoot
