import PspBoot.Proofs.Source.Remote

/-!
# Transports that follow a plan

A planned transport sends a content in pieces of limited length, and fails where its plan says so:
the plan has one entry for each request to come, and behind its end nothing fails.
-/

namespace PspBoot.Transport

variable {α : Type} {content : Bytes} {cap size k : Nat} {url : String} {plan left : List Bool}

/-- Takes the next entry of the plan, and fails or gives the answer. -/
def follow (answer : α) : StateM (List Bool) (Except TransportError α) :=
  fun plan =>
    match plan with
    | true :: plan => (.error (.failed "planned"), plan)
    | false :: plan => (.ok answer, plan)
    | [] => (.ok answer, [])

/-- The transport of a content that sends at most `cap` bytes at a time. -/
def planned (content : Bytes) (cap : Nat) : Transport (List Bool) where
  lengthOf _ := follow (some content.length)
  fetch _ offset len := follow ((Bytes.slice content offset len).take cap)

theorem eq_of_follow {answer found : α} (h : (follow answer plan).1 = .ok found) :
    found = answer := by
  unfold follow at h
  split at h
  · cases h
  · cases h
    rfl
  · cases h
    rfl

/-- Whatever the answer is, the plan goes on with its next entry. -/
theorem rest_follow (answer : α) (plan : List Bool) : (follow answer plan).2 = plan.tail := by
  match plan with
  | true :: plan | false :: plan | [] => rfl

/-- Behind the end of the plan nothing fails. -/
theorem ne_nil_of_follow {answer : α} {error : TransportError}
    (h : (follow answer plan).1 = .error error) : plan ≠ [] := by
  rintro rfl
  cases h

/-- What a planned transport answers is right. -/
theorem serves_planned (url : String) (content : Bytes) (cap : Nat) (plan : List Bool) :
    (planned content cap).Serves url content cap plan where
  length _ _ _ _ h := eq_of_follow h
  range _ _ offset len data _ _ _ h := by
    rw [eq_of_follow h]
    exact .take _ _

/-- The failures in a row and those that are still to come are never more than planned. -/
theorem length_planned (h : (planned content cap).Reaches url size plan k left) :
    k + left.length ≤ plan.length := by
  have hrest {α : Type} (answer : α) (left : List Bool) :
      (follow answer left).2.length = left.length - 1 := by
    rw [rest_follow, List.length_tail]
  induction h with
  | start => exact Nat.le_of_eq (Nat.zero_add _)
  | @lengthTold _ left _ _ _ ih =>
    change 0 + (follow (some content.length) left).2.length ≤ _
    rw [hrest]
    omega
  | @lengthFailed _ left _ _ hfailed ih =>
    have hsome := List.length_pos_iff.mpr (ne_nil_of_follow hfailed)
    change _ + 1 + (follow (some content.length) left).2.length ≤ _
    rw [hrest]
    omega
  | @rangeSent _ left offset len _ _ _ _ _ ih =>
    change 0 + (follow ((Bytes.slice content offset len).take cap) left).2.length ≤ _
    rw [hrest]
    omega
  | @rangeFailed _ left offset len _ _ _ _ hfailed ih =>
    have hsome := List.length_pos_iff.mpr (ne_nil_of_follow hfailed)
    change _ + 1 + (follow ((Bytes.slice content offset len).take cap) left).2.length ≤ _
    rw [hrest]
    omega

/-- A planned transport fails at most as often in a row as its plan is long. -/
theorem relents_planned (url : String) (content : Bytes) (cap : Nat) {plan : List Bool}
    {patience : Nat} (h : plan.length < patience) :
    (planned content cap).Relents url content patience plan := by
  intro k left hreach
  have hlength := length_planned hreach
  omega

end PspBoot.Transport
