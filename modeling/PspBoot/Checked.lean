import PspBoot.Bytes
import PspBoot.Focus

/-!
# Actions that may stop

The sizes and offsets of a running program are words of 64 bits, and a buffer can hold no more bytes
than the largest signed word says.  A `Checked` action stops where a sum or a product does not fit a
word, where a difference is below zero, and where it asks for a longer buffer.

The reads of a source are written twice: plainly, as if there were no such limits, and beside that
with every step checked.  The plain form tells what is read, the checked one what happens at the
limits.
-/

namespace PspBoot

/-- Actions that may stop. -/
abbrev Checked (σ : Type) := OptionT (StateM σ)

/-- Reads with every step checked. -/
abbrev CheckedRead (σ : Type) := (offset len : Nat) → Checked σ (Bytes)

namespace Checked

variable {σ τ α : Type}

/-- An action without a limit. -/
def lift (action : StateM σ α) : Checked σ α :=
  OptionT.lift action

/-- A number that has to fit a word. -/
def fit (n : Nat) : Checked σ Nat :=
  if n < UInt64.size then pure n else failure

/-- The sum of two words. -/
def add (a b : Nat) : Checked σ Nat :=
  fit (a + b)

/-- The product of two words. -/
def mul (a b : Nat) : Checked σ Nat :=
  fit (a * b)

/-- The difference of two words. -/
def sub (a b : Nat) : Checked σ Nat :=
  if b ≤ a then pure (a - b) else failure

/-- The sum of two words, or the largest word if the sum is larger. -/
def addSaturating (a b : Nat) : Nat :=
  min (a + b) (UInt64.size - 1)

/-- The number of bytes that a buffer can hold at most. -/
def maxRoom : Nat := UInt64.size / 2 - 1

/-- Asks for a buffer that can hold so many bytes. -/
def reserve (room : Nat) : Checked σ Unit :=
  if room ≤ maxRoom then pure () else failure

/-- A checked action on a part of a state. -/
def within (focus : Focus τ σ) (action : Checked σ α) : Checked τ α :=
  OptionT.mk (focus.lift action.run)

end Checked

end PspBoot
