import PspBoot.Text.Hex
import PspBoot.Text.Utf8

/-!
# Digests of paths

The files of a cache entry are named after a 64-bit digest of the locator's path.  The digest
multiplies words of the text into two running words and folds each 128-bit product to 64 bits.
All other arithmetic is modulo 2⁶⁴.  It spreads paths well, but it is no secure hash: two paths
may share a digest.
-/

namespace PspBoot.BlockStore.Digest

/-- The initial value of the first running word. -/
def seedA : UInt64 := 0x243f6a8885a308d3

/-- The initial value of the second running word. -/
def seedB : UInt64 := 0x13198a2e03707344

/-- The word that is mixed into the second half of every chunk. -/
def salt : UInt64 := 0xa4093822299f31d0

/-- The factor by which the digest is multiplied after each part of the input. -/
def multiplier : UInt64 := 0xf1357aea2e62a9c5

/-- The product of two words in 128 bits, folded to 64 by exclusive or. -/
def mix (x y : UInt64) : UInt64 :=
  let product := x.toNat * y.toNat
  UInt64.ofNat product ^^^ UInt64.ofNat (product / UInt64.size)

/-- The little-endian word of `width` bytes at `offset`. -/
def word (width : Nat) (data : Bytes) (offset : Nat) : UInt64 :=
  UInt64.ofNat (Bytes.leNat (Bytes.slice data offset width))

/-- Mixes in chunks of 16 bytes for as long as more than that remain. -/
def absorb (a b : UInt64) (data : Bytes) : UInt64 × UInt64 :=
  if 16 < data.length then
    absorb b (mix (a ^^^ word 8 data 0) (salt ^^^ word 8 data 8)) (data.drop 16)
  else
    (a, b)
termination_by data.length
decreasing_by simp only [List.length_drop]; omega

/-- The two running words behind the whole input.  The end of the input is mixed in by words
that may overlap what was mixed in before. -/
def finish (data : Bytes) : UInt64 × UInt64 :=
  let n := data.length
  if 16 < n then
    let (a, b) := absorb seedA seedB data
    (a ^^^ word 8 data (n - 16), b ^^^ word 8 data (n - 8))
  else if 8 ≤ n then
    (seedA ^^^ word 8 data 0, seedB ^^^ word 8 data (n - 8))
  else if 4 ≤ n then
    (seedA ^^^ word 4 data 0, seedB ^^^ word 4 data (n - 4))
  else if 1 ≤ n then
    (seedA ^^^ word 1 data 0, seedB ^^^ (word 1 data (n - 1) <<< 8 ||| word 1 data (n / 2)))
  else
    (seedA, seedB)

/-- The digest of a byte string before its final scrambling. -/
def ofBytes (data : Bytes) : UInt64 :=
  let (a, b) := finish data
  mix a b ^^^ UInt64.ofNat data.length

/-- The digest of a text.  A byte that no UTF-8 text contains marks its end. -/
def ofText (text : List Char) : UInt64 :=
  let body := ofBytes (Utf8.encode text) * multiplier
  let marked := (body + 0xff) * multiplier
  marked <<< 26 ||| marked >>> 38

/-- The digest of a text as 16 hexadecimal digits. -/
def render (text : String) : String :=
  String.ofList (Text.Hex.padded 16 (ofText text.toList).toNat)

end PspBoot.BlockStore.Digest
