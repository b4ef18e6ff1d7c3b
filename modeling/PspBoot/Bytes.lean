/-!
# Byte strings

Contents of sources and files are lists of bytes.  This module holds the two operations that
every reader of a binary format needs: taking a window of a content, and reading and writing
little-endian words.
-/

namespace PspBoot

/-- A byte string. -/
abbrev Bytes := List UInt8

namespace Bytes

/-- The bytes of `data` from `offset` on, at most `len` of them.  A window that starts at or
behind the end is empty. -/
def slice (data : Bytes) (offset len : Nat) : Bytes :=
  (data.drop offset).take len

/-- The number whose base-256 digits are the given bytes, least significant first. -/
def leNat : Bytes → Nat
  | [] => 0
  | b :: bs => b.toNat + 256 * leNat bs

/-- The `width` least significant base-256 digits of a number, least significant first. -/
def ofNatLE : (width : Nat) → Nat → Bytes
  | 0, _ => []
  | width + 1, n => UInt8.ofNat n :: ofNatLE width (n / 256)

/-- The little-endian word of `width` bytes at `offset`, if all its bytes are there. -/
def wordAt? (width : Nat) (data : Bytes) (offset : Nat) : Option Nat :=
  let raw := slice data offset width
  if raw.length = width then some (leNat raw) else none

/-- The bytes in front of the first zero byte; all of them if there is none. -/
def untilNul (data : Bytes) : Bytes :=
  data.takeWhile (· != 0)

@[simp] theorem length_slice (data : Bytes) (offset len : Nat) :
    (slice data offset len).length = min len (data.length - offset) := by
  simp [slice]

@[simp] theorem length_ofNatLE (width n : Nat) : (ofNatLE width n).length = width := by
  induction width generalizing n with
  | zero => rfl
  | succ width ih => simp [ofNatLE, ih]

/-- Reading back a written word gives the number modulo the word's range. -/
theorem leNat_ofNatLE (width n : Nat) : leNat (ofNatLE width n) = n % Nat.pow 256 width := by
  induction width generalizing n with
  | zero => simp [ofNatLE, leNat, Nat.mod_one]
  | succ width ih =>
    rw [ofNatLE, leNat, ih, UInt8.toNat_ofNat']
    change n % 256 + 256 * (n / 256 % Nat.pow 256 width) = n % (Nat.pow 256 width * 256)
    rw [Nat.mul_comm (Nat.pow 256 width) 256, Nat.mod_mul]

/-- The bytes of a word are below its range. -/
theorem leNat_lt (data : Bytes) : leNat data < Nat.pow 256 data.length := by
  induction data with
  | nil => simp [leNat]
  | cons b bs ih =>
    have hb := b.toNat_lt
    rw [leNat]
    change b.toNat + 256 * leNat bs < Nat.pow 256 bs.length * 256
    omega

/-- A window that covers a middle part gives that part. -/
theorem slice_append (front data rest : Bytes) :
    slice (front ++ (data ++ rest)) front.length data.length = data := by
  simp [slice]

/-- A word that was written behind some bytes is found there, whatever follows it. -/
theorem wordAt?_append {width n : Nat} (front rest : Bytes) (h : n < Nat.pow 256 width) :
    wordAt? width (front ++ (ofNatLE width n ++ rest)) front.length = some n := by
  have hslice := slice_append front (ofNatLE width n) rest
  rw [length_ofNatLE] at hslice
  rw [wordAt?, hslice, if_pos (length_ofNatLE width n), leNat_ofNatLE, Nat.mod_eq_of_lt h]

end Bytes

end PspBoot
