import PspBoot.Json.Token
import PspBoot.Json.Value

/-!
# Strings and numbers read back

What is written for a string or a number is divided into tokens again as it was put together, with
whatever stands behind it left over.  A string is always read back as it was; a number is read
back as `Number.reading` says, which is the number itself if it is a natural one below 2⁶⁴.
-/

namespace PspBoot

namespace Text

namespace Decimal

theorem digits_ne_nil (n : Nat) : digits n ≠ [] := by
  rw [digits]
  split
  · apply List.cons_ne_nil
  · simp

/-- Only zero is written with a leading zero. -/
theorem head?_digits (n : Nat) (h : n ≠ 0) : (digits n).head? ≠ some '0' := by
  rw [digits]
  split
  · next hn =>
    have : ∀ m < 10, m ≠ 0 → digit m ≠ '0' := by decide
    intro heq
    exact this n hn h (Option.some.inj heq)
  · next hn =>
    have ih := head?_digits (n / 10) (by omega)
    cases hfront : digits (n / 10) with
    | nil => exact absurd hfront (digits_ne_nil _)
    | cons c front =>
      rw [hfront] at ih
      exact ih
termination_by n

theorem takeWhile_digits {n : Nat} {rest : List Char} (h : rest.head?.all (!·.isDigit)) :
    (digits n ++ rest).takeWhile Char.isDigit = digits n := by
  rw [List.takeWhile_append_of_pos fun c hc => isDigit_of_mem_digits hc]
  cases rest with
  | nil => rw [List.takeWhile_nil, List.append_nil]
  | cons c rest =>
    have hc : c.isDigit = false := by simpa using h
    rw [List.takeWhile_cons, hc]
    apply List.append_nil

theorem dropWhile_digits {n : Nat} {rest : List Char} (h : rest.head?.all (!·.isDigit)) :
    (digits n ++ rest).dropWhile Char.isDigit = rest := by
  rw [List.dropWhile_append_of_pos fun c hc => isDigit_of_mem_digits hc]
  cases rest with
  | nil => rfl
  | cons c rest =>
    have hc : c.isDigit = false := by simpa using h
    rw [List.dropWhile_cons, hc]
    rfl

end Decimal

end Text

namespace Json

namespace Token

/-! ### Strings -/

theorem hexValue?_digit {n : Nat} (h : n < 16) : hexValue? (Text.Hex.digit n) = some n := by
  have : ∀ m < 16, hexValue? (Text.Hex.digit m) = some m := by decide
  exact this n h

/-- Four hexadecimal digits are read back. -/
theorem hexUnit?_padded (n : Nat) (rest : List Char) :
    hexUnit? (Text.Hex.padded 4 n ++ rest) = some (n % 65536, rest) := by
  simp only [Text.Hex.padded, List.nil_append, List.cons_append, hexUnit?,
    hexValue?_digit (Nat.mod_lt _ (by decide : 0 < 16)), Option.bind_eq_bind, Option.bind_some,
    Option.pure_def]
  congr 2
  omega

/-- A character is read back, whether it is escaped or not. -/
theorem scanString_escape (c : Char) (more : List Char) :
    scanString (Value.escape c ++ more) =
      (scanString more).map fun (text, rest) => (c :: text, rest) := by
  have hescaped {tail : List Char} {d : Char} (h : escape? tail = some (d, more)) :
      scanString ('\\' :: tail) = (scanString more).map fun (text, rest) => (d :: text, rest) := by
    rw [scanString, if_neg (by decide), if_pos rfl]
    split
    · next hnone =>
      simp [h] at hnone
    · next d' rest hsome =>
      rw [h] at hsome
      cases hsome
      rfl
  unfold Value.escape
  iterate 7
    split
    · next h =>
      subst h
      exact hescaped rfl
  split
  · next hcontrol =>
    apply hescaped
    change unicodeEscape? (Text.Hex.padded 4 c.toNat ++ more) = some (c, more)
    rw [unicodeEscape?, hexUnit?_padded, Nat.mod_eq_of_lt (by omega)]
    dsimp only
    rw [if_neg (by omega), if_neg (by omega), Char.ofNat_toNat]
  · next hquote hbackslash _ _ _ _ _ hplain =>
    rw [List.singleton_append, scanString, if_neg hquote, if_neg hbackslash, if_neg hplain]

/-- A string is read back up to its closing quote. -/
theorem scanString_renderString (text rest : List Char) :
    scanString (text.flatMap Value.escape ++ '"' :: rest) = some (text, rest) := by
  induction text with
  | nil =>
    rw [List.flatMap_nil, List.nil_append, scanString, if_pos rfl]
  | cons c text ih =>
    rw [List.flatMap_cons, List.append_assoc, scanString_escape, ih]
    rfl

/-! ### Numbers -/

/-- A text that cannot go on with a number: it is at its end, or a separator or an end follows. -/
def Delimited (rest : List Char) : Prop :=
  ∀ c ∈ rest.head?, c = ',' ∨ c = ']' ∨ c = Char.ofNat 0x7D

theorem Delimited.noDigit {rest : List Char} (h : Delimited rest) :
    rest.head?.all (!·.isDigit) := by
  cases rest with
  | nil => rfl
  | cons c rest =>
    rcases h c rfl with rfl | rfl | rfl
    · rfl
    · rfl
    · rfl

theorem Delimited.scanFraction {rest : List Char} (h : Delimited rest) :
    scanFraction rest = some (none, rest) := by
  unfold Token.scanFraction
  split
  · rcases h '.' rfl with h | h | h
    · cases h
    · cases h
    · cases h
  · rfl

theorem Delimited.scanExponent {rest : List Char} (h : Delimited rest) :
    scanExponent rest = some (none, rest) := by
  cases rest with
  | nil => rfl
  | cons c rest =>
    unfold Token.scanExponent
    rcases h c rfl with rfl | rfl | rfl
    · rfl
    · rfl
    · rfl

/-- The digits of a number, and whatever follows them. -/
theorem scanUnsigned_digits (negative : Bool) (n : Nat) {rest : List Char}
    (h : rest.head?.all (!·.isDigit)) :
    scanUnsigned negative (Text.Decimal.digits n ++ rest) =
      (scanFraction rest).bind fun (fraction, rest) =>
        (scanExponent rest).bind fun (exponent, rest) =>
          (Number.ofParts? negative (Text.Decimal.digits n) fraction exponent).map (·, rest) := by
  unfold scanUnsigned
  rw [Text.Decimal.takeWhile_digits h, Text.Decimal.dropWhile_digits h]
  cases hdigits : Text.Decimal.digits n with
  | nil => exact absurd hdigits (Text.Decimal.digits_ne_nil n)
  | cons first others =>
    dsimp only
    rw [if_neg]
    · simp only [Option.bind_eq_bind, Option.pure_def, Option.map_eq_bind]
      rfl
    rintro ⟨rfl, hothers⟩
    by_cases hzero : n = 0
    · subst hzero
      have : Text.Decimal.digits 0 = ['0'] := by rw [Text.Decimal.digits]; rfl
      rw [this] at hdigits
      exact hothers (List.cons.inj hdigits).2.symm
    · have hhead := Text.Decimal.head?_digits _ hzero
      rw [hdigits] at hhead
      exact hhead rfl

theorem scanExponent_digits (exponent : Int) {rest : List Char} (h : Delimited rest) :
    scanExponent
        ('e' :: ((if exponent < 0 then ['-'] else []) ++
          (Text.Decimal.digits exponent.natAbs ++ rest))) =
      some (some exponent, rest) := by
  have hscan (negative : Bool) :
      scanExponentDigits negative (Text.Decimal.digits exponent.natAbs ++ rest) =
        some (some (if negative then -(exponent.natAbs : Int) else exponent.natAbs), rest) := by
    unfold scanExponentDigits
    rw [Text.Decimal.takeWhile_digits h.noDigit, Text.Decimal.dropWhile_digits h.noDigit]
    dsimp only
    rw [if_neg (Text.Decimal.digits_ne_nil _), Text.Decimal.value_digits]
  by_cases hsign : exponent < 0
  · rw [if_pos hsign]
    change scanExponentDigits true (Text.Decimal.digits exponent.natAbs ++ rest) = _
    rw [hscan, if_pos rfl]
    congr 3
    omega
  · rw [if_neg hsign, List.nil_append]
    unfold scanExponent
    dsimp only
    rw [if_pos (Or.inl rfl)]
    have hplain := hscan false
    cases hdigits : Text.Decimal.digits exponent.natAbs with
    | nil => exact absurd hdigits (Text.Decimal.digits_ne_nil _)
    | cons c cs =>
      have hc : c.isDigit = true :=
        Text.Decimal.isDigit_of_mem_digits (hdigits ▸ List.mem_cons_self)
      rw [hdigits] at hplain
      split
      · next heq =>
        cases heq
        cases hc
      · next heq =>
        cases heq
        cases hc
      · rw [hplain, if_neg (by decide)]
        congr 3
        omega

end Token

/-- How a number is read back from what is written for it. -/
def Number.reading : Number → Option Number
  | .natural value => ofParts? false (Text.Decimal.digits value) none none
  | .decimal negative significand exponent =>
      ofParts? negative (Text.Decimal.digits significand) none (some exponent)

namespace Number

theorem le_foldl_value (cs : List Char) (n : Nat) :
    n ≤ cs.foldl (fun n c => n * 10 + Text.Decimal.valueOf c) n := by
  induction cs generalizing n with
  | nil => exact Nat.le_refl n
  | cons c cs ih =>
    have := ih (n * 10 + Text.Decimal.valueOf c)
    rw [List.foldl_cons]
    omega

/-- Digits that have all been taken are those of the value. -/
theorem value_of_not_full (cs : List Char) (s : Significand)
    (h : (cs.foldl Significand.addWhole s).full = false) :
    s.full = false ∧ (cs.foldl Significand.addWhole s).value =
      cs.foldl (fun n c => n * 10 + Text.Decimal.valueOf c) s.value := by
  induction cs generalizing s with
  | nil => exact ⟨h, rfl⟩
  | cons c cs ih =>
    obtain ⟨hfull, hvalue⟩ := ih (s.addWhole c) h
    rw [List.foldl_cons, List.foldl_cons, hvalue]
    unfold Significand.addWhole at hfull ⊢
    dsimp only at hfull ⊢
    by_cases hstop : s.full = true ∨ UInt64.size ≤ s.value * 10 + Text.Decimal.valueOf c
    · simp [if_pos hstop] at hfull
    · rw [if_neg hstop] at hfull ⊢
      exact ⟨hfull, rfl⟩

/-- Digits of a number below the range are all taken. -/
theorem not_full_of_lt (cs : List Char) (s : Significand) (hfull : s.full = false)
    (h : cs.foldl (fun n c => n * 10 + Text.Decimal.valueOf c) s.value < UInt64.size) :
    (cs.foldl Significand.addWhole s).full = false := by
  induction cs generalizing s with
  | nil => exact hfull
  | cons c cs ih =>
    rw [List.foldl_cons] at h ⊢
    have hroom : ¬(s.full = true ∨ UInt64.size ≤ s.value * 10 + Text.Decimal.valueOf c) := by
      rintro (hstop | hstop)
      · simp [hfull] at hstop
      · have := le_foldl_value cs (s.value * 10 + Text.Decimal.valueOf c)
        omega
    have hstep : s.addWhole c = { s with value := s.value * 10 + Text.Decimal.valueOf c } := by
      simp only [Significand.addWhole, if_neg hroom]
    rw [hstep]
    exact ih _ hfull h

/-- A natural number that fits 64 bits is read back as it is. -/
theorem reading_natural {n : Nat} (h : n < UInt64.size) :
    (natural n).reading = some (.natural n) := by
  have hvalue : (Text.Decimal.digits n).foldl (fun n c => n * 10 + Text.Decimal.valueOf c) 0 = n :=
    Text.Decimal.value_digits n
  have hfull := not_full_of_lt (Text.Decimal.digits n) {} rfl (by rw [hvalue]; exact h)
  have hfront := (value_of_not_full _ _ hfull).2
  simp [reading, ofParts?, hfull, hfront, hvalue]

/-- A natural number is read back as no other one. -/
theorem eq_of_natural?_reading {n m : Nat} {x : Number} (h : (natural n).reading = some x)
    (hx : x.natural? = some m) : m = n := by
  have hvalue : (Text.Decimal.digits n).foldl (fun n c => n * 10 + Text.Decimal.valueOf c) 0 = n :=
    Text.Decimal.value_digits n
  rw [reading, ofParts?] at h
  dsimp only at h
  cases hfull : ((Text.Decimal.digits n).foldl Significand.addWhole {}).full with
  | true =>
    rw [hfull] at h
    split at h
    · next hcontra => simp at hcontra
    · split at h
      · cases h
        cases hx
      · cases h
  | false =>
    rw [hfull] at h
    cases h
    obtain rfl := Option.some.inj hx
    exact (value_of_not_full _ _ hfull).2.trans hvalue

end Number

namespace Token

/-! ### Texts -/

/-- A text begins with the token that its first character begins. -/
theorem scan_cons {c : Char} (cs : List Char) (h : isBlank c = false) :
    scan (c :: cs) = (scanOne c cs).bind fun (token, rest) => (scan rest).map (token :: ·) := by
  rw [scan, if_neg (by rw [h]; decide)]
  split
  · next hnone =>
    rw [hnone]
    rfl
  · next token rest hsome =>
    change (scan rest).map (token :: ·) = _
    rw [hsome]
    rfl

theorem scan_renderString (text rest : List Char) :
    scan (Value.renderString text ++ rest) = (scan rest).map (.string text :: ·) := by
  have hquote : Value.renderString text ++ rest =
      '"' :: (text.flatMap Value.escape ++ '"' :: rest) := by
    simp [Value.renderString]
  have hone : scanOne '"' (text.flatMap Value.escape ++ '"' :: rest) =
      some (.string text, rest) := by
    change Option.map _ (scanString _) = _
    rw [scanString_renderString]
    rfl
  rw [hquote, scan_cons _ rfl, hone]
  rfl

/-- A digit begins a number. -/
theorem scanOne_digit {c : Char} (cs : List Char) (h : c.isDigit = true) :
    scanOne c cs =
      (scanUnsigned false (c :: cs)).map fun (value, rest) => (.number value, rest) := by
  have hne (other : Char) (hother : other.isDigit = false) : c ≠ other := by
    rintro rfl
    simp [h] at hother
  simp [scanOne, hne, h]

theorem scan_unsigned {n : Nat} (tail : List Char) :
    scan (Text.Decimal.digits n ++ tail) =
      (scanUnsigned false (Text.Decimal.digits n ++ tail)).bind fun (value, rest) =>
        (scan rest).map (.number value :: ·) := by
  cases hdigits : Text.Decimal.digits n with
  | nil => exact absurd hdigits (Text.Decimal.digits_ne_nil n)
  | cons c cs =>
    have hc : c.isDigit = true := Text.Decimal.isDigit_of_mem_digits (hdigits ▸ List.mem_cons_self)
    have hblank : isBlank c = false := by
      unfold isBlank
      simp only [Bool.or_eq_false_iff, beq_eq_false_iff_ne]
      refine ⟨⟨⟨?_, ?_⟩, ?_⟩, ?_⟩
      all_goals
        rintro rfl
        cases hc
    rw [List.cons_append, scan_cons _ hblank, scanOne_digit _ hc]
    cases scanUnsigned false (c :: (cs ++ tail)) with
    | none => rfl
    | some result => rfl

theorem scan_minus {n : Nat} (tail : List Char) :
    scan ('-' :: (Text.Decimal.digits n ++ tail)) =
      (scanUnsigned true (Text.Decimal.digits n ++ tail)).bind fun (value, rest) =>
        (scan rest).map (.number value :: ·) := by
  rw [scan_cons _ rfl]
  change (Option.map _ (scanUnsigned true _)).bind _ = _
  cases scanUnsigned true (Text.Decimal.digits n ++ tail) with
  | none => rfl
  | some result => rfl

theorem scan_number (x : Number) {rest : List Char} (h : Delimited rest) :
    scan (x.render ++ rest) = x.reading.bind fun y => (scan rest).map (.number y :: ·) := by
  cases x with
  | natural value =>
    change scan (Text.Decimal.digits value ++ rest) = _
    rw [scan_unsigned, scanUnsigned_digits false value h.noDigit, h.scanFraction]
    dsimp only [Option.bind_some]
    rw [h.scanExponent]
    dsimp only [Option.bind_some]
    change (Option.map _ (Number.reading (.natural value))).bind _ = _
    cases Number.reading (.natural value) with
    | none => rfl
    | some y => rfl
  | decimal negative significand exponent =>
    let tail := 'e' :: ((if exponent < 0 then ['-'] else []) ++
      (Text.Decimal.digits exponent.natAbs ++ rest))
    have hdigit : tail.head?.all (!·.isDigit) := rfl
    have hfraction : scanFraction tail = some (none, tail) := rfl
    have hscan : (scanUnsigned negative (Text.Decimal.digits significand ++ tail)) =
        (Number.reading (.decimal negative significand exponent)).map (·, rest) := by
      rw [scanUnsigned_digits negative significand hdigit, hfraction]
      dsimp only [Option.bind_some]
      rw [scanExponent_digits exponent h]
      rfl
    have hrender : (Number.decimal negative significand exponent).render ++ rest =
        (if negative then ['-'] else []) ++ (Text.Decimal.digits significand ++ tail) := by
      simp [Number.render, tail]
    rw [hrender]
    cases negative with
    | true =>
      rw [if_pos rfl, List.singleton_append, scan_minus, hscan]
      cases Number.reading (.decimal true significand exponent) with
      | none => rfl
      | some y => rfl
    | false =>
      rw [if_neg (by decide), List.nil_append, scan_unsigned, hscan]
      cases Number.reading (.decimal false significand exponent) with
      | none => rfl
      | some y => rfl

end Token

end Json

end PspBoot
