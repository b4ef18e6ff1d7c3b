/-!
# Decimal text

Natural numbers written in base 10 without leading zeros, and their values read back.
-/

namespace PspBoot.Text.Decimal

/-- The digit with the given value below 10. -/
def digit (value : Nat) : Char :=
  Char.ofNat (48 + value)

/-- The value of a decimal digit. -/
def valueOf (c : Char) : Nat :=
  c.toNat - 48

/-- The digits of a number, most significant first; zero has one digit. -/
def digits (n : Nat) : List Char :=
  if n < 10 then [digit n] else digits (n / 10) ++ [digit (n % 10)]
termination_by n

/-- The number with the given digits, most significant first. -/
def value (cs : List Char) : Nat :=
  cs.foldl (fun n c => n * 10 + valueOf c) 0

theorem valueOf_digit {n : Nat} (h : n < 10) : valueOf (digit n) = n := by
  have : ∀ m < 10, valueOf (digit m) = m := by decide
  exact this n h

theorem isDigit_digit {n : Nat} (h : n < 10) : (digit n).isDigit = true := by
  have : ∀ m < 10, (digit m).isDigit = true := by decide
  exact this n h

/-- The digits of a number read back as the number. -/
@[simp] theorem value_digits (n : Nat) : value (digits n) = n := by
  rw [digits]
  split
  · next h => simp [value, valueOf_digit h]
  · next h =>
    have ih := value_digits (n / 10)
    have hdigit : valueOf (digit (n % 10)) = n % 10 := valueOf_digit (by omega)
    simp only [value, List.foldl_append, List.foldl_cons, List.foldl_nil] at ih ⊢
    rw [ih, hdigit]
    omega
termination_by n

/-- Only digits are written. -/
theorem isDigit_of_mem_digits {n : Nat} {c : Char} (h : c ∈ digits n) : c.isDigit = true := by
  rw [digits] at h
  split at h
  · next hn =>
    obtain rfl := List.mem_singleton.mp h
    exact isDigit_digit hn
  · next hn =>
    rcases List.mem_append.mp h with h | h
    · exact isDigit_of_mem_digits h
    · obtain rfl := List.mem_singleton.mp h
      exact isDigit_digit (by omega)
termination_by n

end PspBoot.Text.Decimal
