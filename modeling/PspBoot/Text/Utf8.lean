import PspBoot.Bytes

/-!
# UTF-8

Texts are stored as UTF-8.  A byte string is read as a sequence of characters and of invalid
parts, where an invalid part is as long as the bytes still form the beginning of some character.
Reading strictly refuses invalid parts; reading leniently shows each one as U+FFFD.
-/

namespace PspBoot.Utf8

/-- The UTF-8 form of a text. -/
def encode (text : List Char) : Bytes :=
  text.flatMap String.utf8EncodeChar

/-- Ranges in which the bytes behind a lead byte have to lie; none if no character begins with
that byte.  The first range is narrower where it excludes overlong forms and surrogates. -/
def tailRanges (lead : UInt8) : Option (List (UInt8 × UInt8)) :=
  if lead < 0x80 then some []
  else if lead < 0xC2 then none
  else if lead < 0xE0 then some [(0x80, 0xBF)]
  else if lead = 0xE0 then some [(0xA0, 0xBF), (0x80, 0xBF)]
  else if lead = 0xED then some [(0x80, 0x9F), (0x80, 0xBF)]
  else if lead < 0xF0 then some [(0x80, 0xBF), (0x80, 0xBF)]
  else if lead = 0xF0 then some [(0x90, 0xBF), (0x80, 0xBF), (0x80, 0xBF)]
  else if lead < 0xF4 then some [(0x80, 0xBF), (0x80, 0xBF), (0x80, 0xBF)]
  else if lead = 0xF4 then some [(0x80, 0x8F), (0x80, 0xBF), (0x80, 0xBF)]
  else none

/-- The bits that a lead byte contributes to the code point, by the number of bytes behind it. -/
def leadBits (lead : UInt8) : (tail : Nat) → Nat
  | 0 => lead.toNat
  | 1 => lead.toNat % 32
  | 2 => lead.toNat % 16
  | _ => lead.toNat % 8

/-- Reads the bytes behind a lead byte.  The result has the code point, or nothing if a byte is
missing or out of range, and the bytes that were not read. -/
def readTail : List (UInt8 × UInt8) → (code : Nat) → Bytes → Option Nat × Bytes
  | [], code, rest => (some code, rest)
  | _ :: _, _, [] => (none, [])
  | (low, high) :: ranges, code, b :: rest =>
      if low ≤ b && b ≤ high then
        readTail ranges (code * 64 + b.toNat % 64) rest
      else
        (none, b :: rest)

/-- Reads the character that begins with `lead`, or one invalid part. -/
def readChar (lead : UInt8) (rest : Bytes) : Option Char × Bytes :=
  match tailRanges lead with
  | none => (none, rest)
  | some ranges =>
      let read := readTail ranges (leadBits lead ranges.length) rest
      (read.1.map Char.ofNat, read.2)

theorem length_readTail_le (ranges : List (UInt8 × UInt8)) (code : Nat) (bytes : Bytes) :
    (readTail ranges code bytes).2.length ≤ bytes.length := by
  fun_induction readTail ranges code bytes with
  | case1 => simp
  | case2 => simp
  | case3 _ _ _ _ _ _ _ ih => simp only [List.length_cons]; omega
  | case4 => simp

theorem length_readChar_le (lead : UInt8) (rest : Bytes) :
    (readChar lead rest).2.length ≤ rest.length := by
  unfold readChar
  split
  · simp
  · exact length_readTail_le _ _ _

/-- The characters of a byte string in order, with `none` for each invalid part. -/
def pieces : Bytes → List (Option Char)
  | [] => []
  | b :: bs =>
      have := length_readChar_le b bs
      (readChar b bs).1 :: pieces (readChar b bs).2
termination_by bytes => bytes.length

/-- The text that the bytes spell, if they are valid throughout. -/
def decode? (bytes : Bytes) : Option (List Char) :=
  (pieces bytes).mapM id

/-- The text that the bytes spell, with U+FFFD for each invalid part. -/
def decodeLossy (bytes : Bytes) : List Char :=
  (pieces bytes).map (·.getD (Char.ofNat 0xFFFD))

end PspBoot.Utf8
