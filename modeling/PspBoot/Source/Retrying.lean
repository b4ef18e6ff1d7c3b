import PspBoot.Checked
import PspBoot.Config
import PspBoot.Source.Basic

/-!
# Trying again

`Source.retrying` repeats what failed for a transient reason.  A check that came out negative is
repeated only if the inner source recorded a failure during that very attempt: a definite "no" is
believed at once.  A short read is continued behind the bytes already received.  All operations
keep to the policy's number of attempts and hold no state between calls.

The waiting time between two attempts is `RetryPolicy.delayAfter`; waiting changes no state.
-/

namespace PspBoot

namespace Retrying

variable {σ α : Type}

/-- Makes a check up to the given number of times, for as long as it finds nothing and each
attempt records a failure. -/
def repeatCheck (inner : Source σ) (check : StateM σ (Option α)) :
    (attempts : Nat) → StateM σ (Option α)
  | 0 => pure none
  | attempts + 1 => do
      let failures ← inner.failureCount
      match ← check with
      | some found => pure (some found)
      | none =>
          if (← inner.failureCount) = failures then
            pure none
          else
            repeatCheck inner check attempts

/-- Presence as something to be found. -/
def findPresence (inner : Source σ) : StateM σ (Option Unit) := do
  pure (if ← inner.isPresent then some () else none)

/-- A size that is known, that is, not zero. -/
def findSize (inner : Source σ) : StateM σ (Option Nat) := do
  let size ← inner.size
  pure (if size = 0 then none else some size)

/-- Reads on behind the bytes in `received`, up to the given number of times, until `len` bytes
are there or the end of the source is reached. -/
def readOn (inner : Source σ) (size offset len : Nat) :
    (attempts : Nat) → (received : Bytes) → StateM σ Bytes
  | 0, received => pure received
  | attempts + 1, received =>
      if len ≤ received.length ∨ size ≤ offset + received.length then
        pure received
      else do
        let chunk ← inner.readAt (offset + received.length) (len - received.length)
        readOn inner size offset len attempts (received ++ chunk)

/-- The size of the inner source, asked for repeatedly while that fails. -/
def size (policy : RetryPolicy) (inner : Source σ) : StateM σ Nat := do
  pure ((← repeatCheck inner (findSize inner) policy.attempts).getD 0)

/-- A read that is continued while it is short. -/
def readAt (policy : RetryPolicy) (inner : Source σ) (offset len : Nat) : StateM σ Bytes := do
  let size ← size policy inner
  let received ← readOn inner size offset len policy.attempts []
  pure (received.take len)

/-- `readOn` with every step checked. -/
def readOnChecked (read : CheckedRead σ) (size offset len : Nat) :
    (attempts : Nat) → (received : Bytes) → Checked σ Bytes
  | 0, received => pure received
  | attempts + 1, received => do
      let position ← Checked.add offset received.length
      if len ≤ received.length ∨ size ≤ position then
        pure received
      else
        let missing ← Checked.sub len received.length
        let chunk ← read position missing
        let received := received ++ chunk
        if len ≤ received.length then
          pure received
        else
          let reached ← Checked.add offset received.length
          if size ≤ reached then
            pure received
          else
            readOnChecked read size offset len attempts received

/-- `readAt` with every step checked. -/
def readAtChecked (policy : RetryPolicy) (inner : Source σ) (read : CheckedRead σ) :
    CheckedRead σ :=
  fun offset len => do
    let size ← Checked.lift (size policy inner)
    let received ← readOnChecked read size offset len policy.attempts []
    pure (received.take len)

end Retrying

/-- The source with failed checks and short reads repeated according to the policy. -/
def Source.retrying {σ : Type} (policy : RetryPolicy) (inner : Source σ) : Source σ where
  locator := inner.locator
  isPresent := do
    pure (← Retrying.repeatCheck inner (Retrying.findPresence inner) policy.attempts).isSome
  isDirectory := inner.isDirectory
  size := Retrying.size policy inner
  readAt := Retrying.readAt policy inner
  lastFailure := inner.lastFailure
  failureCount := inner.failureCount
  hasEntry := inner.hasEntry

end PspBoot
