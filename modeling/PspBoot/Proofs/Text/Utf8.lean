import PspBoot.Text.Utf8

/-!
# UTF-8 read back

A text that was stored as UTF-8 is read back as it was (`decode?_encode`).  The bytes of one
character are read back by themselves; the ranges in which they have to lie are the narrower ones
exactly where the character is near the end of a range of code points.
-/

namespace PspBoot.Utf8

theorem toNat_byte {n : Nat} (h : n < 256) : (UInt8.ofNat n).toNat = n := by
  rw [UInt8.toNat_ofNat']
  exact Nat.mod_eq_of_lt h

/-- A byte behind the lead byte adds six bits. -/
theorem readTail_cons {low high : UInt8} {n : Nat} (ranges : List (UInt8 × UInt8)) (code : Nat)
    (rest : Bytes) (hlow : low.toNat ≤ n % 64 + 128) (hhigh : n % 64 + 128 ≤ high.toNat) :
    readTail ((low, high) :: ranges) code (UInt8.ofNat (n % 64 + 128) :: rest) =
      readTail ranges (code * 64 + n % 64) rest := by
  have hbyte : (UInt8.ofNat (n % 64 + 128)).toNat = n % 64 + 128 := toNat_byte (by omega)
  have hin : (low ≤ UInt8.ofNat (n % 64 + 128) && UInt8.ofNat (n % 64 + 128) ≤ high) = true := by
    simp only [UInt8.le_iff_toNat_le, hbyte, Bool.and_eq_true, decide_eq_true_eq]
    exact ⟨hlow, hhigh⟩
  rw [readTail, if_pos hin, hbyte]
  congr 1
  omega

/-- The ranges behind a lead byte, by the number that it is. -/
theorem tailRanges_ofNat {n : Nat} (h : n < 256) :
    tailRanges (UInt8.ofNat n) =
      if n < 0x80 then some []
      else if n < 0xC2 then none
      else if n < 0xE0 then some [(0x80, 0xBF)]
      else if n = 0xE0 then some [(0xA0, 0xBF), (0x80, 0xBF)]
      else if n = 0xED then some [(0x80, 0x9F), (0x80, 0xBF)]
      else if n < 0xF0 then some [(0x80, 0xBF), (0x80, 0xBF)]
      else if n = 0xF0 then some [(0x90, 0xBF), (0x80, 0xBF), (0x80, 0xBF)]
      else if n < 0xF4 then some [(0x80, 0xBF), (0x80, 0xBF), (0x80, 0xBF)]
      else if n = 0xF4 then some [(0x80, 0x8F), (0x80, 0xBF), (0x80, 0xBF)]
      else none := by
  unfold tailRanges
  simp only [UInt8.lt_iff_toNat_lt, ← UInt8.toNat_inj, toNat_byte h, UInt8.reduceToNat]

/-- A character is complete once all ranges are used up. -/
theorem readChar_of_readTail {n code : Nat} {ranges : List (UInt8 × UInt8)} {bytes rest : Bytes}
    (hranges : tailRanges (UInt8.ofNat n) = some ranges)
    (htail : readTail ranges (leadBits (UInt8.ofNat n) ranges.length) bytes = (some code, rest)) :
    readChar (UInt8.ofNat n) bytes = (some (Char.ofNat code), rest) := by
  rw [readChar, hranges]
  dsimp only
  rw [htail]
  rfl

theorem readChar_one {v : Nat} (h : v < 0x80) (rest : Bytes) :
    readChar (UInt8.ofNat v) rest = (some (Char.ofNat v), rest) := by
  have hranges : tailRanges (UInt8.ofNat v) = some [] := by
    rw [tailRanges_ofNat (by omega), if_pos h]
  apply readChar_of_readTail hranges
  rw [readTail]
  change (some (UInt8.ofNat v).toNat, rest) = _
  rw [toNat_byte (by omega)]

theorem readChar_two {v : Nat} (hlow : 0x80 ≤ v) (hhigh : v < 0x800) (rest : Bytes) :
    readChar (UInt8.ofNat (v / 64 % 32 + 0xc0)) (UInt8.ofNat (v % 64 + 0x80) :: rest) =
      (some (Char.ofNat v), rest) := by
  have hranges : tailRanges (UInt8.ofNat (v / 64 % 32 + 0xc0)) = some [(0x80, 0xBF)] := by
    rw [tailRanges_ofNat (by omega), if_neg (by omega), if_neg (by omega), if_pos (by omega)]
  apply readChar_of_readTail hranges
  rw [readTail_cons _ _ _ (by simp) (by simp; omega), readTail]
  change (some ((UInt8.ofNat (v / 64 % 32 + 0xc0)).toNat % 32 * 64 + v % 64), rest) = _
  rw [toNat_byte (by omega)]
  congr 2
  omega

/-- Two bytes behind the lead byte.  The first of them is restricted where three bytes would be
too many or the code point would be a surrogate. -/
theorem readChar_three {v : Nat} (hlow : 0x800 ≤ v) (hhigh : v < 0x10000)
    (hvalid : v < 0xD800 ∨ 0xDFFF < v) (rest : Bytes) :
    readChar (UInt8.ofNat (v / 4096 % 16 + 0xe0))
        (UInt8.ofNat (v / 64 % 64 + 0x80) :: UInt8.ofNat (v % 64 + 0x80) :: rest) =
      (some (Char.ofNat v), rest) := by
  have hranges : ∃ low high : UInt8,
      tailRanges (UInt8.ofNat (v / 4096 % 16 + 0xe0)) = some [(low, high), (0x80, 0xBF)] ∧
        low.toNat ≤ v / 64 % 64 + 0x80 ∧ v / 64 % 64 + 0x80 ≤ high.toNat := by
    rw [tailRanges_ofNat (by omega), if_neg (by omega), if_neg (by omega), if_neg (by omega)]
    split
    · exact ⟨_, _, rfl, by simp; omega, by simp; omega⟩
    · split
      · exact ⟨_, _, rfl, by simp, by simp; omega⟩
      · rw [if_pos (by omega)]
        exact ⟨_, _, rfl, by simp, by simp; omega⟩
  obtain ⟨low, high, hranges, hfrom, hto⟩ := hranges
  apply readChar_of_readTail hranges
  rw [readTail_cons _ _ _ hfrom hto, readTail_cons _ _ _ (by simp) (by simp; omega), readTail]
  change (some (((UInt8.ofNat (v / 4096 % 16 + 0xe0)).toNat % 16 * 64 + v / 64 % 64) * 64 + v % 64),
    rest) = _
  rw [toNat_byte (by omega)]
  congr 2
  omega

theorem readChar_four {v : Nat} (hlow : 0x10000 ≤ v) (hhigh : v < 0x110000) (rest : Bytes) :
    readChar (UInt8.ofNat (v / 262144 % 8 + 0xf0))
        (UInt8.ofNat (v / 4096 % 64 + 0x80) :: UInt8.ofNat (v / 64 % 64 + 0x80) ::
          UInt8.ofNat (v % 64 + 0x80) :: rest) =
      (some (Char.ofNat v), rest) := by
  have hranges : ∃ low high : UInt8,
      tailRanges (UInt8.ofNat (v / 262144 % 8 + 0xf0)) =
          some [(low, high), (0x80, 0xBF), (0x80, 0xBF)] ∧
        low.toNat ≤ v / 4096 % 64 + 0x80 ∧ v / 4096 % 64 + 0x80 ≤ high.toNat := by
    rw [tailRanges_ofNat (by omega), if_neg (by omega), if_neg (by omega), if_neg (by omega),
      if_neg (by omega), if_neg (by omega), if_neg (by omega)]
    split
    · exact ⟨_, _, rfl, by simp; omega, by simp; omega⟩
    · split
      · exact ⟨_, _, rfl, by simp, by simp; omega⟩
      · rw [if_pos (by omega)]
        exact ⟨_, _, rfl, by simp, by simp; omega⟩
  obtain ⟨low, high, hranges, hfrom, hto⟩ := hranges
  apply readChar_of_readTail hranges
  rw [readTail_cons _ _ _ hfrom hto, readTail_cons _ _ _ (by simp) (by simp; omega),
    readTail_cons _ _ _ (by simp) (by simp; omega), readTail]
  change (some ((((UInt8.ofNat (v / 262144 % 8 + 0xf0)).toNat % 8 * 64 + v / 4096 % 64) * 64 +
    v / 64 % 64) * 64 + v % 64), rest) = _
  rw [toNat_byte (by omega)]
  congr 2
  omega

/-- The bytes of a character are read back as the character. -/
theorem readChar_encode (c : Char) (rest : Bytes) :
    ∃ lead tail, String.utf8EncodeChar c = lead :: tail ∧
      readChar lead (tail ++ rest) = (some c, rest) := by
  have hvalid : c.toNat < 0xD800 ∨ 0xDFFF < c.toNat ∧ c.toNat < 0x110000 := c.valid
  have hchar : Char.ofNat c.val.toNat = c := Char.ofNat_toNat c
  unfold String.utf8EncodeChar
  dsimp only
  have hto : c.toNat = c.val.toNat := rfl
  rw [hto] at hvalid
  split
  · next h =>
    refine ⟨_, _, rfl, ?_⟩
    rw [List.nil_append, readChar_one (by omega), hchar]
  · split
    · refine ⟨_, _, rfl, ?_⟩
      rw [List.cons_append, List.nil_append, readChar_two (by omega) (by omega), hchar]
    · split
      · refine ⟨_, _, rfl, ?_⟩
        rw [List.cons_append, List.cons_append, List.nil_append,
          readChar_three (by omega) (by omega) (by omega), hchar]
      · refine ⟨_, _, rfl, ?_⟩
        rw [List.cons_append, List.cons_append, List.cons_append, List.nil_append,
          readChar_four (by omega) (by omega), hchar]

/-- The pieces of a stored text are its characters. -/
theorem pieces_encode (text : List Char) : pieces (encode text) = text.map some := by
  induction text with
  | nil => rw [encode, List.flatMap_nil, pieces, List.map_nil]
  | cons c text ih =>
    obtain ⟨lead, tail, hc, hread⟩ := readChar_encode c (encode text)
    have hbytes : encode (c :: text) = lead :: (tail ++ encode text) := by
      rw [encode, List.flatMap_cons, hc]
      rfl
    rw [hbytes, pieces, hread, ih, List.map_cons]

/-- Bytes are valid if all their pieces are characters. -/
theorem decode?_eq_some {bytes : Bytes} {text : List Char} :
    decode? bytes = some text ↔ pieces bytes = text.map some := by
  rw [decode?]
  generalize pieces bytes = found
  induction found generalizing text with
  | nil => cases text <;> simp
  | cons piece found ih =>
    rw [List.mapM_cons]
    cases piece with
    | none => cases text <;> simp
    | some c =>
      simp only [id, Option.bind_eq_bind, Option.bind_some, Option.bind_eq_some_iff, ih]
      cases text with
      | nil => simp
      | cons d text => simpa using And.comm

/-- **A stored text is read back.** -/
theorem decode?_encode (text : List Char) : decode? (encode text) = some text :=
  decode?_eq_some.mpr (pieces_encode text)

/-- A stored text is shown as it was, without replacements. -/
theorem decodeLossy_encode (text : List Char) : decodeLossy (encode text) = text := by
  rw [decodeLossy, pieces_encode, List.map_map]
  exact List.map_id text

/-- Different texts are stored as different bytes. -/
theorem encode_inj {text other : List Char} : encode text = encode other ↔ text = other := by
  constructor
  · intro h
    have hdecode := decodeLossy_encode text
    rw [h, decodeLossy_encode] at hdecode
    exact hdecode.symm
  · exact congrArg encode

/-! ### Texts that break off

What is read of a character does not depend on what follows it. -/

theorem readTail_append {ranges : List (UInt8 × UInt8)} {code code' : Nat} {bytes rest : Bytes}
    (h : readTail ranges code bytes = (some code', rest)) (more : Bytes) :
    readTail ranges code (bytes ++ more) = (some code', rest ++ more) := by
  fun_induction readTail ranges code bytes with
  | case1 code bytes =>
    cases h
    rw [readTail]
  | case2 => cases h
  | case3 low high ranges code b bytes hin ih =>
    rw [List.cons_append, readTail, if_pos hin]
    exact ih h
  | case4 => cases h

theorem readChar_append {lead : UInt8} {c : Char} {bytes rest : Bytes}
    (h : readChar lead bytes = (some c, rest)) (more : Bytes) :
    readChar lead (bytes ++ more) = (some c, rest ++ more) := by
  unfold readChar at h ⊢
  split at h
  · cases h
  · next ranges =>
    dsimp only at h ⊢
    obtain ⟨hc, hrest⟩ := Prod.mk.inj h
    obtain ⟨code, hcode, rfl⟩ := Option.map_eq_some_iff.mp hc
    have htail := readTail_append (Prod.ext hcode hrest) more
    rw [htail]
    rfl

theorem pieces_append {bytes : Bytes} {text : List Char} (h : pieces bytes = text.map some)
    (more : Bytes) : pieces (bytes ++ more) = text.map some ++ pieces more := by
  fun_induction pieces bytes generalizing text with
  | case1 =>
    rw [← h]
    rfl
  | case2 b bytes hlength ih =>
    cases text with
    | nil => cases h
    | cons c text =>
      obtain ⟨hc, hrest⟩ := List.cons.inj h
      rw [List.cons_append, pieces, readChar_append (Prod.ext hc rfl) more, ih hrest]
      rfl

/-- A beginning of a stored text is invalid, or it is a beginning of the text that is stored. -/
theorem decode?_of_prefix {part : Bytes} {text found : List Char} (hpart : part <+: encode text)
    (h : decode? part = some found) : found <+: text ∧ (found = text → part = encode text) := by
  obtain ⟨more, hmore⟩ := hpart
  have hpieces := pieces_append (decode?_eq_some.mp h) more
  rw [hmore, pieces_encode] at hpieces
  obtain ⟨front, back, rfl, hfront, hback⟩ := List.map_eq_append_iff.mp hpieces
  obtain rfl := (List.map_inj_right fun _ _ => Option.some.inj).mp hfront
  refine ⟨List.prefix_append _ _, fun hwhole => ?_⟩
  obtain rfl : back = [] := List.append_right_eq_self.mp hwhole.symm
  cases more with
  | nil => rw [← hmore, List.append_nil]
  | cons b more =>
    rw [pieces] at hback
    cases hback

/-- The only character with a zero byte in its UTF-8 form is NUL. -/
theorem zero_not_mem_utf8EncodeChar {c : Char} (h : c ≠ '\x00') : 0 ∉ String.utf8EncodeChar c := by
  have hbyte {n : Nat} (hpos : 0 < n) (hlt : n < 256) : 0 ≠ UInt8.ofNat n := by
    intro hzero
    have hn := congrArg UInt8.toNat hzero
    rw [toNat_byte hlt] at hn
    exact absurd hn (Nat.ne_of_lt hpos)
  have hpos : 0 < c.val.toNat := by
    rw [Nat.pos_iff_ne_zero]
    intro hzero
    exact h (Char.ext (UInt32.toNat_inj.mp hzero))
  unfold String.utf8EncodeChar
  dsimp only
  split
  · simp only [List.mem_singleton]
    exact hbyte hpos (by omega)
  · split
    · simp only [List.mem_cons, List.not_mem_nil, or_false, not_or]
      exact ⟨hbyte (by omega) (by omega), hbyte (by omega) (by omega)⟩
    · split
      · simp only [List.mem_cons, List.not_mem_nil, or_false, not_or]
        exact ⟨hbyte (by omega) (by omega), hbyte (by omega) (by omega),
          hbyte (by omega) (by omega)⟩
      · simp only [List.mem_cons, List.not_mem_nil, or_false, not_or]
        exact ⟨hbyte (by omega) (by omega), hbyte (by omega) (by omega),
          hbyte (by omega) (by omega), hbyte (by omega) (by omega)⟩

theorem zero_not_mem_encode {text : List Char} (h : '\x00' ∉ text) : 0 ∉ encode text := by
  rw [encode, List.mem_flatMap]
  rintro ⟨c, hc, hzero⟩
  refine zero_not_mem_utf8EncodeChar ?_ hzero
  rintro rfl
  exact h hc

end PspBoot.Utf8
