/-!
# Durations

A duration is a whole number of nanoseconds, bounded by what a 64-bit count of seconds and a
fraction below one second can hold.  Multiplication stops at that bound.
-/

namespace PspBoot

/-- The number of nanoseconds of the longest duration: 2⁶⁴ − 1 seconds and the longest fraction. -/
def Duration.longest : Nat := (UInt64.size - 1) * 1000000000 + 999999999

/-- A span of time in nanoseconds. -/
structure Duration where
  nanoseconds : Nat
  le_longest : nanoseconds ≤ Duration.longest
deriving Repr, DecidableEq

namespace Duration

/-- The duration of the given number of nanoseconds, or the longest one if they are too many. -/
def ofNanoseconds (n : Nat) : Duration where
  nanoseconds := min n longest
  le_longest := Nat.min_le_right n longest

/-- The duration of whole seconds and additional nanoseconds. -/
def ofParts (seconds nanoseconds : Nat) : Duration :=
  ofNanoseconds (seconds * 1000000000 + nanoseconds)

/-- The duration of the given number of milliseconds. -/
def ofMilliseconds (n : Nat) : Duration :=
  ofNanoseconds (n * 1000000)

/-- The whole seconds of a duration. -/
def seconds (d : Duration) : Nat :=
  d.nanoseconds / 1000000000

/-- The nanoseconds of a duration that do not fill a second. -/
def subsecond (d : Duration) : Nat :=
  d.nanoseconds % 1000000000

/-- The duration times `factor`, or the longest one if that is too long. -/
def scale (d : Duration) (factor : Nat) : Duration :=
  ofNanoseconds (d.nanoseconds * factor)

/-- The shorter of two durations. -/
def shorter (d e : Duration) : Duration :=
  if d.nanoseconds ≤ e.nanoseconds then d else e

instance : Inhabited Duration := ⟨ofNanoseconds 0⟩

@[simp] theorem nanoseconds_ofNanoseconds (n : Nat) :
    (ofNanoseconds n).nanoseconds = min n longest := rfl

@[simp] theorem nanoseconds_scale (d : Duration) (factor : Nat) :
    (d.scale factor).nanoseconds = min (d.nanoseconds * factor) longest := rfl

@[simp] theorem nanoseconds_shorter (d e : Duration) :
    (d.shorter e).nanoseconds = min d.nanoseconds e.nanoseconds := by
  unfold shorter
  split <;> omega

end Duration

end PspBoot
