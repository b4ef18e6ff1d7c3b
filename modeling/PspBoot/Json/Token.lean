import PspBoot.Json.Number

/-!
# JSON tokens

The first step of reading a JSON text divides it into tokens: brackets, separators, the three
words, numbers and strings.  Blanks between tokens are dropped.  Strings and numbers are decoded
here, so a text with a malformed one has no tokens at all.
-/

namespace PspBoot.Json

/-- A token of a JSON text. -/
inductive Token where
  | openArray
  | closeArray
  | openObject
  | closeObject
  | comma
  | colon
  | null
  | boolean (value : Bool)
  | number (value : Number)
  | string (text : List Char)
deriving Repr, Inhabited, DecidableEq

namespace Token

/-! ### Strings -/

/-- The value of a hexadecimal digit of either case. -/
def hexValue? (c : Char) : Option Nat :=
  if '0' ≤ c ∧ c ≤ '9' then some (c.toNat - 48)
  else if 'a' ≤ c ∧ c ≤ 'f' then some (c.toNat - 87)
  else if 'A' ≤ c ∧ c ≤ 'F' then some (c.toNat - 55)
  else none

/-- The number written by the next four hexadecimal digits, and the text behind them. -/
def hexUnit? : List Char → Option (Nat × List Char)
  | a :: b :: c :: d :: rest => do
      let a ← hexValue? a
      let b ← hexValue? b
      let c ← hexValue? c
      let d ← hexValue? d
      pure (((a * 16 + b) * 16 + c) * 16 + d, rest)
  | _ => none

/-- The character of an escape by code units.  A character outside the basic plane takes two
escapes, a high and a low surrogate; a surrogate by itself is refused. -/
def unicodeEscape? (cs : List Char) : Option (Char × List Char) :=
  match hexUnit? cs with
  | none => none
  | some (unit, rest) =>
      if 0xDC00 ≤ unit ∧ unit ≤ 0xDFFF then
        none
      else if 0xD800 ≤ unit ∧ unit ≤ 0xDBFF then
        match rest with
        | '\\' :: 'u' :: rest =>
            match hexUnit? rest with
            | some (low, rest) =>
                if 0xDC00 ≤ low ∧ low ≤ 0xDFFF then
                  some (Char.ofNat (0x10000 + (unit - 0xD800) * 0x400 + (low - 0xDC00)), rest)
                else
                  none
            | none => none
        | _ => none
      else
        some (Char.ofNat unit, rest)

/-- The character of the escape behind a backslash, and the text behind it. -/
def escape? : List Char → Option (Char × List Char)
  | '"' :: rest => some ('"', rest)
  | '\\' :: rest => some ('\\', rest)
  | '/' :: rest => some ('/', rest)
  | 'b' :: rest => some ('\x08', rest)
  | 'f' :: rest => some ('\x0c', rest)
  | 'n' :: rest => some ('\n', rest)
  | 'r' :: rest => some ('\r', rest)
  | 't' :: rest => some ('\t', rest)
  | 'u' :: rest => unicodeEscape? rest
  | _ => none

theorem length_hexUnit? {cs rest : List Char} {unit : Nat} (h : hexUnit? cs = some (unit, rest)) :
    rest.length < cs.length := by
  unfold hexUnit? at h
  split at h
  · next a b c d tail =>
    simp only [Option.pure_def, Option.bind_eq_bind, Option.bind_eq_some_iff] at h
    obtain ⟨_, _, _, _, _, _, _, _, h⟩ := h
    obtain ⟨-, rfl⟩ := Prod.mk.inj (Option.some.inj h)
    simp only [List.length_cons]
    omega
  · simp at h

theorem length_unicodeEscape? {cs rest : List Char} {c : Char}
    (h : unicodeEscape? cs = some (c, rest)) : rest.length < cs.length := by
  unfold unicodeEscape? at h
  split at h
  · simp at h
  · next unit tail hunit =>
    have htail := length_hexUnit? hunit
    split at h
    · simp at h
    · split at h
      · split at h
        · next low =>
          split at h
          · next hlow =>
            have hrest := length_hexUnit? hlow
            split at h
            · obtain ⟨-, rfl⟩ := Prod.mk.inj (Option.some.inj h)
              simp only [List.length_cons] at htail
              omega
            · simp at h
          · simp at h
        · simp at h
      · obtain ⟨-, rfl⟩ := Prod.mk.inj (Option.some.inj h)
        exact htail

theorem length_escape? {cs rest : List Char} {c : Char} (h : escape? cs = some (c, rest)) :
    rest.length < cs.length := by
  unfold escape? at h
  split at h
  case h_9 tail =>
    have := length_unicodeEscape? h
    simp only [List.length_cons]
    omega
  case h_10 => simp at h
  all_goals
    obtain ⟨-, rfl⟩ := Prod.mk.inj (Option.some.inj h)
    simp

/-- The text of a string behind its opening quote, and what follows the closing quote.  Controls
have to be escaped. -/
def scanString : List Char → Option (List Char × List Char)
  | [] => none
  | c :: cs =>
      if c = '"' then
        some ([], cs)
      else if c = '\\' then
        match h : escape? cs with
        | none => none
        | some (d, rest) =>
            have := length_escape? h
            (scanString rest).map fun (text, rest) => (d :: text, rest)
      else if c.toNat < 0x20 then
        none
      else
        (scanString cs).map fun (text, rest) => (c :: text, rest)
termination_by cs => cs.length

/-- What follows the closing quote of a string is shorter than what follows its opening quote. -/
theorem length_scanString {cs text rest : List Char} (h : scanString cs = some (text, rest)) :
    rest.length < cs.length := by
  fun_induction scanString cs generalizing text rest with
  | case1 => simp at h
  | case2 cs =>
    obtain ⟨-, rfl⟩ := Prod.mk.inj (Option.some.inj h)
    simp
  | case3 => simp at h
  | case4 cs d tail hescape htail _ ih =>
    obtain ⟨⟨text', rest'⟩, hrec, heq⟩ := Option.map_eq_some_iff.mp h
    obtain ⟨-, rfl⟩ := Prod.mk.inj heq
    have := ih hrec
    simp only [List.length_cons]
    omega
  | case5 => simp at h
  | case6 c cs _ _ _ ih =>
    obtain ⟨⟨text', rest'⟩, hrec, heq⟩ := Option.map_eq_some_iff.mp h
    obtain ⟨-, rfl⟩ := Prod.mk.inj heq
    have := ih hrec
    simp only [List.length_cons]
    omega

/-! ### Numbers -/

/-- The digits behind a decimal point, if there is one; a point needs a digit. -/
def scanFraction : List Char → Option (Option (List Char) × List Char)
  | '.' :: cs =>
      if cs.takeWhile Char.isDigit = [] then
        none
      else
        some (some (cs.takeWhile Char.isDigit), cs.dropWhile Char.isDigit)
  | cs => some (none, cs)

/-- The digits of an exponent with its sign already read. -/
def scanExponentDigits (negative : Bool) (cs : List Char) : Option (Option Int × List Char) :=
  let digits := cs.takeWhile Char.isDigit
  if digits = [] then
    none
  else
    let size : Int := Text.Decimal.value digits
    some (some (if negative then -size else size), cs.dropWhile Char.isDigit)

/-- The exponent, if there is one; it needs a digit. -/
def scanExponent : List Char → Option (Option Int × List Char)
  | c :: cs =>
      if c = 'e' ∨ c = 'E' then
        match cs with
        | '+' :: rest => scanExponentDigits false rest
        | '-' :: rest => scanExponentDigits true rest
        | _ => scanExponentDigits false cs
      else
        some (none, c :: cs)
  | [] => some (none, [])

/-- A number with its sign already read, and the text behind it.  A leading zero stands alone. -/
def scanUnsigned (negative : Bool) (cs : List Char) : Option (Number × List Char) :=
  match cs.takeWhile Char.isDigit with
  | [] => none
  | first :: others =>
      if first = '0' ∧ others ≠ [] then
        none
      else do
        let (fraction, rest) ← scanFraction (cs.dropWhile Char.isDigit)
        let (exponent, rest) ← scanExponent rest
        let value ← Number.ofParts? negative (first :: others) fraction exponent
        pure (value, rest)

theorem length_dropWhile_lt {p : Char → Bool} {cs : List Char} (h : cs.takeWhile p ≠ []) :
    (cs.dropWhile p).length < cs.length := by
  have hsplit := congrArg List.length (List.takeWhile_append_dropWhile (p := p) (l := cs))
  rw [List.length_append] at hsplit
  have := List.length_pos_iff.mpr h
  omega

theorem length_scanFraction {cs rest : List Char} {fraction : Option (List Char)}
    (h : scanFraction cs = some (fraction, rest)) : rest.length ≤ cs.length := by
  unfold scanFraction at h
  split at h
  · next cs =>
    split at h
    · simp at h
    · next hne =>
      obtain ⟨-, rfl⟩ := Prod.mk.inj (Option.some.inj h)
      have := length_dropWhile_lt hne
      simp only [List.length_cons]
      omega
  · obtain ⟨-, rfl⟩ := Prod.mk.inj (Option.some.inj h)
    exact Nat.le_refl _

theorem length_scanExponentDigits {negative : Bool} {cs rest : List Char} {exponent : Option Int}
    (h : scanExponentDigits negative cs = some (exponent, rest)) : rest.length ≤ cs.length := by
  unfold scanExponentDigits at h
  dsimp only at h
  split at h
  · simp at h
  · next hne =>
    obtain ⟨-, rfl⟩ := Prod.mk.inj (Option.some.inj h)
    exact Nat.le_of_lt (length_dropWhile_lt hne)

theorem length_scanExponent {cs rest : List Char} {exponent : Option Int}
    (h : scanExponent cs = some (exponent, rest)) : rest.length ≤ cs.length := by
  unfold scanExponent at h
  split at h
  · next c cs =>
    split at h
    · split at h <;> have := length_scanExponentDigits h <;> simp only [List.length_cons] <;> omega
    · obtain ⟨-, rfl⟩ := Prod.mk.inj (Option.some.inj h)
      exact Nat.le_refl _
  · obtain ⟨-, rfl⟩ := Prod.mk.inj (Option.some.inj h)
    exact Nat.le_refl _

theorem length_scanUnsigned {negative : Bool} {cs rest : List Char} {value : Number}
    (h : scanUnsigned negative cs = some (value, rest)) : rest.length < cs.length := by
  unfold scanUnsigned at h
  split at h
  · simp at h
  · next first others hdigits =>
    split at h
    · simp at h
    · simp only [Option.pure_def, Option.bind_eq_bind, Option.bind_eq_some_iff] at h
      obtain ⟨⟨fraction, rest₁⟩, h₁, ⟨exponent, rest₂⟩, h₂, value', -, h₃⟩ := h
      obtain ⟨-, rfl⟩ := Prod.mk.inj (Option.some.inj h₃)
      have hdrop : (cs.dropWhile Char.isDigit).length < cs.length :=
        length_dropWhile_lt (by simp [hdigits])
      calc rest₂.length
        _ ≤ rest₁.length := length_scanExponent h₂
        _ ≤ (cs.dropWhile Char.isDigit).length := length_scanFraction h₁
        _ < cs.length := hdrop

/-! ### Whole texts -/

/-- Whether a character may stand between tokens. -/
def isBlank (c : Char) : Bool :=
  c == ' ' || c == '\t' || c == '\n' || c == '\r'

/-- The token that begins with the given character, and the text behind it. -/
def scanOne (c : Char) (cs : List Char) : Option (Token × List Char) :=
  if c = '[' then some (.openArray, cs)
  else if c = ']' then some (.closeArray, cs)
  else if c = Char.ofNat 0x7B then some (.openObject, cs)
  else if c = Char.ofNat 0x7D then some (.closeObject, cs)
  else if c = ',' then some (.comma, cs)
  else if c = ':' then some (.colon, cs)
  else if c = '"' then (scanString cs).map fun (text, rest) => (.string text, rest)
  else if c = '-' then (scanUnsigned true cs).map fun (value, rest) => (.number value, rest)
  else if c.isDigit then
    (scanUnsigned false (c :: cs)).map fun (value, rest) => (.number value, rest)
  else
    match c, cs with
    | 'n', 'u' :: 'l' :: 'l' :: rest => some (.null, rest)
    | 't', 'r' :: 'u' :: 'e' :: rest => some (.boolean true, rest)
    | 'f', 'a' :: 'l' :: 's' :: 'e' :: rest => some (.boolean false, rest)
    | _, _ => none

theorem length_scanOne {c : Char} {cs rest : List Char} {token : Token}
    (h : scanOne c cs = some (token, rest)) : rest.length ≤ cs.length := by
  unfold scanOne at h
  iterate 6
    split at h
    · obtain ⟨-, rfl⟩ := Prod.mk.inj (Option.some.inj h)
      exact Nat.le_refl _
  split at h
  · obtain ⟨⟨text, rest'⟩, hstring, heq⟩ := Option.map_eq_some_iff.mp h
    obtain ⟨-, rfl⟩ := Prod.mk.inj heq
    exact Nat.le_of_lt (length_scanString hstring)
  split at h
  · obtain ⟨⟨value, rest'⟩, hnumber, heq⟩ := Option.map_eq_some_iff.mp h
    obtain ⟨-, rfl⟩ := Prod.mk.inj heq
    exact Nat.le_of_lt (length_scanUnsigned hnumber)
  split at h
  · obtain ⟨⟨value, rest'⟩, hnumber, heq⟩ := Option.map_eq_some_iff.mp h
    obtain ⟨-, rfl⟩ := Prod.mk.inj heq
    have := length_scanUnsigned hnumber
    simp only [List.length_cons] at this
    omega
  split at h
  case h_4 => simp at h
  all_goals
    obtain ⟨-, rfl⟩ := Prod.mk.inj (Option.some.inj h)
    simp only [List.length_cons]
    omega

/-- The tokens of a text, if it can be divided into tokens. -/
def scan : List Char → Option (List Token)
  | [] => some []
  | c :: cs =>
      if isBlank c then
        scan cs
      else
        match h : scanOne c cs with
        | none => none
        | some (token, rest) =>
            have := length_scanOne h
            (scan rest).map (token :: ·)
termination_by cs => cs.length

end Token

end PspBoot.Json
