/-!
# Hexadecimal text

Numbers are written in base 16 with lower-case digits, either with a fixed number of digits or
with as few as possible.
-/

namespace PspBoot.Text.Hex

/-- The digit with the given value below 16. -/
def digit (value : Nat) : Char :=
  if value < 10 then Char.ofNat (48 + value) else Char.ofNat (87 + value)

/-- The `width` last hexadecimal digits of a number, most significant first. -/
def padded : (width : Nat) → Nat → List Char
  | 0, _ => []
  | width + 1, n => padded width (n / 16) ++ [digit (n % 16)]

/-- A number without leading zeros; zero is a single digit. -/
def shortest (n : Nat) : List Char :=
  if n < 16 then [digit n] else shortest (n / 16) ++ [digit (n % 16)]
termination_by n

@[simp] theorem length_padded (width n : Nat) : (padded width n).length = width := by
  induction width generalizing n with
  | zero => rfl
  | succ width ih => simp [padded, ih]

end PspBoot.Text.Hex
