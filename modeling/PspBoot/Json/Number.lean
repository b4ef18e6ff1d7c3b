import PspBoot.Text.Decimal

/-!
# JSON numbers

A number written with digits alone that fits 64 bits is kept exactly.  Any other number is kept
as a significand and a power of ten, after it has been checked that double precision can hold it:
a number whose double would be infinite is refused.
-/

namespace PspBoot.Json

/-- A number of a JSON text. -/
inductive Number where
  /-- A number below 2⁶⁴ that is written with digits alone. -/
  | natural (value : Nat)
  /-- Any other number: its sign, and a significand times a power of ten. -/
  | decimal (negative : Bool) (significand : Nat) (exponent : Int)
deriving Repr, Inhabited, DecidableEq

/-- The leading digits of a number, as many as fit 64 bits, and the power of ten they stand at. -/
structure Significand where
  value : Nat := 0
  exponent : Int := 0
  /-- Whether a digit had to be dropped; all digits behind it are dropped too. -/
  full : Bool := false
deriving Repr, Inhabited, DecidableEq

namespace Significand

/-- Takes a digit in front of the decimal point. -/
def addWhole (s : Significand) (c : Char) : Significand :=
  let value := s.value * 10 + Text.Decimal.valueOf c
  if s.full ∨ UInt64.size ≤ value then
    { s with exponent := s.exponent + 1, full := true }
  else
    { s with value }

/-- Takes a digit behind the decimal point. -/
def addFraction (s : Significand) (c : Char) : Significand :=
  let value := s.value * 10 + Text.Decimal.valueOf c
  if s.full ∨ UInt64.size ≤ value then
    { s with full := true }
  else
    { s with value, exponent := s.exponent - 1 }

/-- Rounds to a significand of 53 bits, to the nearest and from the middle to the even one. -/
def round53 (n : Nat) : Nat :=
  if n < Nat.pow 2 53 then
    n
  else
    let unit := Nat.pow 2 (n.log2 - 52)
    let quotient := n / unit
    let rest := n % unit
    if unit < 2 * rest ∨ (unit = 2 * rest ∧ quotient % 2 = 1) then
      (quotient + 1) * unit
    else
      quotient * unit

/-- Whether the number, with each factor and the product rounded to double precision, is
finite. -/
def isFinite (s : Significand) : Bool :=
  if s.value = 0 ∨ s.exponent ≤ 0 then
    true
  else if 308 < s.exponent then
    false
  else
    round53 (round53 s.value * round53 (Nat.pow 10 s.exponent.toNat)) < Nat.pow 2 1024

end Significand

namespace Number

/-- The number with the given sign, digits in front of and behind the point, and exponent; none
if it is out of range. -/
def ofParts? (negative : Bool) (whole : List Char) (fraction : Option (List Char))
    (exponent : Option Int) : Option Number :=
  let front := whole.foldl Significand.addWhole {}
  if !negative && fraction.isNone && exponent.isNone && !front.full then
    some (.natural front.value)
  else
    let all := (fraction.getD []).foldl Significand.addFraction front
    let scaled := { all with exponent := all.exponent + exponent.getD 0 }
    if scaled.isFinite then
      some (.decimal negative scaled.value scaled.exponent)
    else
      none

/-- The number as a natural one, if it was written as such. -/
def natural? : Number → Option Nat
  | .natural value => some value
  | .decimal .. => none

/-- The text of a number. -/
def render : Number → List Char
  | .natural value => Text.Decimal.digits value
  | .decimal negative significand exponent =>
      (if negative then ['-'] else []) ++ Text.Decimal.digits significand ++
        'e' :: (if exponent < 0 then ['-'] else []) ++ Text.Decimal.digits exponent.natAbs

end Number

end PspBoot.Json
