import Mathlib.Algebra.Group.Nat.Defs
import Mathlib.Order.Monotone.Basic
import PspBoot.Config

/-!
# Delays between attempts

The delays of a `RetryPolicy` grow with the attempts: each is twice as long as the one before, until
one of three bounds is met.  The policy has a longest delay, no duration is longer than
`Duration.longest`, and the factor of the first delay stays the same from the 33rd attempt on.  The
delays keep growing across all of them, and the longest delay of the policy always holds
(`RetryPolicy.backoff_law`).

A duration is a number of nanoseconds here.  Where seconds and the rest are kept in words of their
own they are multiplied one by one, with a carry, and this comes to the same
(`Duration.parts_scale`).
-/

namespace PspBoot

namespace Duration

theorem nanoseconds_eq_parts (d : Duration) :
    d.nanoseconds = 1000000000 * d.seconds + d.subsecond :=
  (Nat.div_add_mod d.nanoseconds 1000000000).symm

/-- What is not too long has a number of seconds that fits 64 bits, and nothing else has. -/
theorem le_longest_iff (n : Nat) : n ≤ longest ↔ n / 1000000000 < UInt64.size := by
  have hsize : longest + 1 = UInt64.size * 1000000000 := rfl
  rw [Nat.div_lt_iff_lt_mul (by decide), ← hsize, Nat.lt_succ_iff]

/-- **Seconds and the rest of a duration can be multiplied one by one.**  What the rest comes to in
seconds is carried over, and if the seconds no longer fit 64 bits then the duration is the longest
one. -/
theorem parts_scale (d : Duration) (factor : Nat) :
    let seconds := d.seconds * factor + d.subsecond * factor / 1000000000
    if seconds < UInt64.size then
      (d.scale factor).seconds = seconds ∧
        (d.scale factor).subsecond = d.subsecond * factor % 1000000000
    else
      (d.scale factor).nanoseconds = longest := by
  intro seconds
  have hproduct :
      d.nanoseconds * factor = 1000000000 * (d.seconds * factor) + d.subsecond * factor := by
    rw [nanoseconds_eq_parts, Nat.add_mul, Nat.mul_assoc]
  have hseconds : d.nanoseconds * factor / 1000000000 = seconds := by
    rw [hproduct, Nat.mul_add_div (by decide)]
  have hfits := le_longest_iff (d.nanoseconds * factor)
  rw [hseconds] at hfits
  split
  · next hsmall =>
    rw [Duration.seconds, subsecond, nanoseconds_scale, Nat.min_eq_left (hfits.mpr hsmall)]
    refine ⟨hseconds, ?_⟩
    rw [hproduct, Nat.mul_add_mod]
  · next hlarge =>
    rw [nanoseconds_scale]
    exact Nat.min_eq_right (Nat.le_of_lt (Nat.lt_of_not_le fun hle => hlarge (hfits.mp hle)))

end Duration

namespace RetryPolicy

variable {attempt : Nat}

/-! ### The factor -/

/-- The factor fits a 32-bit word: it is a bit that is shifted through the word, and the largest
word once the bit would be out of it. -/
theorem growth_toNat (attempt : UInt32) :
    growth attempt.toNat = (if attempt < 32 then 1 <<< attempt else 0xffffffff : UInt32).toNat := by
  unfold growth
  by_cases hshift : attempt < 32
  · have hsmall : attempt.toNat < 32 := UInt32.lt_iff_toNat_lt.mp hshift
    have hpower : 2 ^ attempt.toNat < 2 ^ 32 := Nat.pow_lt_pow_right (by decide) hsmall
    rw [if_pos hsmall, if_pos hshift, UInt32.toNat_shiftLeft, Nat.mod_eq_of_lt hsmall,
      UInt32.toNat_one, Nat.one_shiftLeft, Nat.mod_eq_of_lt hpower]
    rfl
  · have hlarge : ¬attempt.toNat < 32 := fun hlt => hshift (UInt32.lt_iff_toNat_lt.mpr hlt)
    rw [if_neg hlarge, if_neg hshift]
    rfl

theorem growth_succ (h : attempt < 31) : growth (attempt + 1) = 2 * growth attempt := by
  rw [growth, growth, if_pos (by omega), if_pos (by omega)]
  exact Nat.pow_succ'

/-- The factor does not fall back when it stops doubling. -/
theorem growth_mono : Monotone growth := by
  refine monotone_nat_of_le_succ fun attempt => ?_
  rcases Nat.lt_trichotomy attempt 31 with hdoubling | rfl | hconstant
  · rw [growth_succ hdoubling]
    omega
  · decide
  · rw [growth, growth, if_neg (by omega), if_neg (by omega)]

/-! ### The delays -/

theorem nanoseconds_delayAfter (policy : RetryPolicy) (attempt : Nat) :
    (policy.delayAfter attempt).nanoseconds =
      min policy.longestDelay.nanoseconds
        (min Duration.longest (policy.firstDelay.nanoseconds * growth attempt)) := by
  rw [delayAfter, Duration.nanoseconds_shorter, Duration.nanoseconds_scale, Nat.min_comm,
    Nat.min_comm Duration.longest]

/-- A delay is never shorter than an earlier one. -/
theorem delayAfter_mono (policy : RetryPolicy) :
    Monotone fun attempt => (policy.delayAfter attempt).nanoseconds := by
  intro attempt later hle
  have hfactor := Nat.mul_le_mul_left policy.firstDelay.nanoseconds (growth_mono hle)
  dsimp only
  rw [nanoseconds_delayAfter, nanoseconds_delayAfter]
  omega

/-- A product that is cut off can be doubled as well as the product itself. -/
theorem min_two_mul_min (longest bound n : Nat) :
    min longest (min bound (2 * min longest (min bound n))) = min longest (min bound (2 * n)) := by
  omega

/-- **The delays double until they are cut off.**  The delay after an attempt is the first delay
times a power of two, or times 2³² - 1 where that power would be larger, cut off where durations end
and where the policy wants it to be.  So it never exceeds the longest delay of the policy and never
falls, and the next one is found by doubling it while the factor doubles. -/
theorem backoff_law (policy : RetryPolicy) :
    Duration.longest = (2 ^ 64 - 1) * 10 ^ 9 + 999999999 ∧
      (∀ attempt, (policy.delayAfter attempt).nanoseconds =
        min policy.longestDelay.nanoseconds
          (min Duration.longest
            (policy.firstDelay.nanoseconds * if attempt < 32 then 2 ^ attempt else 2 ^ 32 - 1))) ∧
      (∀ attempt, (policy.delayAfter attempt).nanoseconds ≤ policy.longestDelay.nanoseconds) ∧
      (Monotone fun attempt => (policy.delayAfter attempt).nanoseconds) ∧
      ∀ attempt < 31, (policy.delayAfter (attempt + 1)).nanoseconds =
        min policy.longestDelay.nanoseconds
          (min Duration.longest (2 * (policy.delayAfter attempt).nanoseconds)) := by
  refine ⟨rfl, policy.nanoseconds_delayAfter, fun attempt => ?_, policy.delayAfter_mono,
    fun attempt hattempt => ?_⟩
  · rw [nanoseconds_delayAfter]
    exact Nat.min_le_left _ _
  · calc (policy.delayAfter (attempt + 1)).nanoseconds
        = min policy.longestDelay.nanoseconds (min Duration.longest
            (2 * (policy.firstDelay.nanoseconds * growth attempt))) := by
          rw [nanoseconds_delayAfter, growth_succ hattempt, Nat.mul_left_comm]
      _ = min policy.longestDelay.nanoseconds
            (min Duration.longest (2 * (policy.delayAfter attempt).nanoseconds)) := by
          rw [nanoseconds_delayAfter, min_two_mul_min]

/-- A delay of more than half of the longest duration is not doubled, and a delay of nanoseconds is
not doubled when the factor has reached the largest word. -/
theorem backoff_law_at_bounds :
    let slow : RetryPolicy :=
      { attempts := 40, firstDelay := .ofParts (2 ^ 34) 1
        longestDelay := .ofNanoseconds Duration.longest }
    let quick : RetryPolicy :=
      { attempts := 40, firstDelay := .ofNanoseconds 1, longestDelay := .ofParts 10 0 }
    29 < 31 ∧ (slow.delayAfter 29).nanoseconds = 2 ^ 63 * 10 ^ 9 + 2 ^ 29 ∧
      (slow.delayAfter 30).nanoseconds = min slow.longestDelay.nanoseconds
        (min Duration.longest (2 * (slow.delayAfter 29).nanoseconds)) ∧
      (slow.delayAfter 30).nanoseconds = Duration.longest ∧
      (quick.delayAfter 31).nanoseconds = 2 ^ 31 ∧
      (quick.delayAfter 32).nanoseconds = 2 ^ 32 - 1 := by
  intro slow quick
  obtain ⟨-, hslow, -, -, hdoubled⟩ := backoff_law slow
  obtain ⟨-, hquick, -⟩ := backoff_law quick
  exact ⟨by decide, (hslow 29).trans (by decide), hdoubled 29 (by decide),
    (hslow 30).trans (by decide), (hquick 31).trans (by decide), (hquick 32).trans (by decide)⟩

/-- The standard delays grow until the fifth. -/
example : (List.range 6).map (fun attempt => (standard.delayAfter attempt).nanoseconds / 1000000) =
    [50, 100, 200, 400, 800, 800] := by
  decide

end RetryPolicy

end PspBoot
