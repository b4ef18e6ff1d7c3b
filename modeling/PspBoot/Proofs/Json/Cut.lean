import PspBoot.Proofs.Json.Value

/-!
# Texts that break off

An object that is written but not to its end is not read at all (`parse?_of_cut`).  What is
missing is at least the last bracket, and that was the one to close the first: every beginning of a
text has no more closing brackets than opening ones among its tokens (`Nested`), and going through
tokens leaves as many frames open as there are brackets (`length_foldlM_advance`).  A bracket inside a
string is no token, and a string that breaks off has none (`scanString_cut`).
-/

namespace PspBoot.Json

/-- A beginning of two texts in a row is one of the first, or goes beyond it. -/
theorem prefix_append_cases {α : Type} {part front back : List α} (h : part <+: front ++ back) :
    part <+: front ∨ ∃ more, part = front ++ more ∧ more <+: back := by
  rcases List.prefix_or_prefix_of_prefix h (List.prefix_append front back) with hpart | ⟨more, rfl⟩
  · exact .inl hpart
  · exact .inr ⟨more, rfl, (List.prefix_append_right_inj front).mp h⟩

namespace Token

/-! ### Strings that break off

What is read of a string does not depend on what follows it. -/

theorem hexUnit?_append {cs rest : List Char} {unit : Nat} (h : hexUnit? cs = some (unit, rest))
    (more : List Char) : hexUnit? (cs ++ more) = some (unit, rest ++ more) := by
  unfold hexUnit? at h
  split at h
  · next a b c d tail =>
    simp only [Option.pure_def, Option.bind_eq_bind, Option.bind_eq_some_iff] at h
    obtain ⟨_, ha, _, hb, _, hc, _, hd, h⟩ := h
    obtain ⟨rfl, rfl⟩ := Prod.mk.inj (Option.some.inj h)
    simp [hexUnit?, ha, hb, hc, hd]
  · cases h

theorem unicodeEscape?_append {cs rest : List Char} {c : Char}
    (h : unicodeEscape? cs = some (c, rest)) (more : List Char) :
    unicodeEscape? (cs ++ more) = some (c, rest ++ more) := by
  unfold unicodeEscape? at h ⊢
  split at h
  · cases h
  next unit tail hunit =>
  rw [hexUnit?_append hunit]
  dsimp only
  split at h
  · cases h
  next hlow =>
  rw [if_neg hlow]
  split at h
  · next hhigh =>
    rw [if_pos hhigh]
    split at h
    · next behind =>
      rw [List.cons_append, List.cons_append]
      split at h
      · next low _ hsecond =>
        split at h
        · next hpair =>
          obtain ⟨rfl, rfl⟩ := Prod.mk.inj (Option.some.inj h)
          simp only [hexUnit?_append hsecond, if_pos hpair]
        · cases h
      · cases h
    · cases h
  · next hplain =>
    rw [if_neg hplain]
    obtain ⟨rfl, rfl⟩ := Prod.mk.inj (Option.some.inj h)
    rfl

theorem escape?_append {cs rest : List Char} {c : Char} (h : escape? cs = some (c, rest))
    (more : List Char) : escape? (cs ++ more) = some (c, rest ++ more) := by
  unfold escape? at h
  split at h
  case h_9 tail => exact unicodeEscape?_append h more
  case h_10 => cases h
  all_goals
    obtain ⟨rfl, rfl⟩ := Prod.mk.inj (Option.some.inj h)
    rfl

theorem scanString_append {cs text rest : List Char} (h : scanString cs = some (text, rest))
    (more : List Char) : scanString (cs ++ more) = some (text, rest ++ more) := by
  fun_induction scanString cs generalizing text rest with
  | case1 => cases h
  | case2 cs =>
    obtain ⟨rfl, rfl⟩ := Prod.mk.inj (Option.some.inj h)
    rw [List.cons_append, scanString, if_pos rfl]
  | case3 => cases h
  | case4 cs d tail hescape htail hquote ih =>
    obtain ⟨⟨text', rest'⟩, hrec, heq⟩ := Option.map_eq_some_iff.mp h
    obtain ⟨rfl, rfl⟩ := Prod.mk.inj heq
    rw [List.cons_append, scanString, if_neg (by decide), if_pos rfl]
    split
    · next hnone =>
      rw [escape?_append hescape] at hnone
      cases hnone
    · next hsome =>
      rw [escape?_append hescape] at hsome
      cases hsome
      rw [ih hrec]
      rfl
  | case5 => cases h
  | case6 c cs hquote hbackslash hcontrol ih =>
    obtain ⟨⟨text', rest'⟩, hrec, heq⟩ := Option.map_eq_some_iff.mp h
    obtain ⟨rfl, rfl⟩ := Prod.mk.inj heq
    rw [List.cons_append, scanString, if_neg hquote, if_neg hbackslash, if_neg hcontrol, ih hrec]
    rfl

/-- A string without its closing quote is not read. -/
theorem scanString_cut {part text : List Char} (h : part <+: text.flatMap Value.escape) :
    scanString part = none := by
  rw [Option.eq_none_iff_forall_ne_some]
  rintro ⟨found, rest⟩ hsome
  obtain ⟨more, hmore⟩ := h
  have hwhole := scanString_append hsome (more ++ ['"'])
  rw [← List.append_assoc, hmore, scanString_renderString] at hwhole
  have hrest := congrArg List.length (congrArg Prod.snd (Option.some.inj hwhole))
  simp at hrest

/-! ### Tokens that are no brackets -/

/-- The bracket that begins an array or an object. -/
def opens : Token → Bool
  | .openArray | .openObject => true
  | _ => false

/-- The bracket that ends an array or an object. -/
def closes : Token → Bool
  | .closeArray | .closeObject => true
  | _ => false

/-- A character that neither ends an array or an object nor begins a string. -/
def Plain (c : Char) : Prop :=
  c ≠ '"' ∧ c ≠ ']' ∧ c ≠ Char.ofNat 0x7D

instance (c : Char) : Decidable (Plain c) :=
  inferInstanceAs (Decidable (_ ∧ _ ∧ _))

theorem suffix_scanFraction {cs rest : List Char} {fraction : Option (List Char)}
    (h : scanFraction cs = some (fraction, rest)) : rest <:+ cs := by
  unfold scanFraction at h
  split at h
  · next cs =>
    split at h
    · cases h
    · obtain ⟨-, rfl⟩ := Prod.mk.inj (Option.some.inj h)
      exact (List.dropWhile_suffix _).trans (List.suffix_cons _ _)
  · obtain ⟨-, rfl⟩ := Prod.mk.inj (Option.some.inj h)
    exact List.suffix_refl _

theorem suffix_scanExponentDigits {negative : Bool} {cs rest : List Char} {exponent : Option Int}
    (h : scanExponentDigits negative cs = some (exponent, rest)) : rest <:+ cs := by
  unfold scanExponentDigits at h
  dsimp only at h
  split at h
  · cases h
  · obtain ⟨-, rfl⟩ := Prod.mk.inj (Option.some.inj h)
    exact List.dropWhile_suffix _

theorem suffix_scanExponent {cs rest : List Char} {exponent : Option Int}
    (h : scanExponent cs = some (exponent, rest)) : rest <:+ cs := by
  unfold scanExponent at h
  split at h
  · next c cs =>
    split at h
    · refine List.IsSuffix.trans ?_ (List.suffix_cons c cs)
      split at h
      · exact (suffix_scanExponentDigits h).trans (List.suffix_cons _ _)
      · exact (suffix_scanExponentDigits h).trans (List.suffix_cons _ _)
      · exact suffix_scanExponentDigits h
    · obtain ⟨-, rfl⟩ := Prod.mk.inj (Option.some.inj h)
      exact List.suffix_refl _
  · obtain ⟨-, rfl⟩ := Prod.mk.inj (Option.some.inj h)
    exact List.suffix_refl _

theorem suffix_scanUnsigned {negative : Bool} {cs rest : List Char} {value : Number}
    (h : scanUnsigned negative cs = some (value, rest)) : rest <:+ cs := by
  unfold scanUnsigned at h
  split at h
  · cases h
  · split at h
    · cases h
    · simp only [Option.pure_def, Option.bind_eq_bind, Option.bind_eq_some_iff] at h
      obtain ⟨⟨fraction, rest₁⟩, h₁, ⟨exponent, rest₂⟩, h₂, value', -, h₃⟩ := h
      obtain ⟨-, rfl⟩ := Prod.mk.inj (Option.some.inj h₃)
      exact (suffix_scanExponent h₂).trans
        ((suffix_scanFraction h₁).trans (List.dropWhile_suffix _))

/-- Only its own character begins a closing bracket, and unless a string begins, what follows a token
is what is left of the text. -/
theorem scanOne_plain {c : Char} {cs rest : List Char} {token : Token} (hplain : Plain c)
    (h : scanOne c cs = some (token, rest)) : token.closes = false ∧ rest <:+ cs := by
  obtain ⟨hquote, harray, hobject⟩ := hplain
  unfold scanOne at h
  rw [if_neg harray, if_neg hobject, if_neg hquote] at h
  iterate 4
    split at h
    · obtain ⟨rfl, rfl⟩ := Prod.mk.inj (Option.some.inj h)
      exact ⟨rfl, List.suffix_refl _⟩
  split at h
  · obtain ⟨⟨value, rest'⟩, hnumber, heq⟩ := Option.map_eq_some_iff.mp h
    obtain ⟨rfl, rfl⟩ := Prod.mk.inj heq
    exact ⟨rfl, suffix_scanUnsigned hnumber⟩
  split at h
  · obtain ⟨⟨value, rest'⟩, hnumber, heq⟩ := Option.map_eq_some_iff.mp h
    obtain ⟨rfl, rfl⟩ := Prod.mk.inj heq
    have hshorter := length_scanUnsigned hnumber
    rcases List.suffix_cons_iff.mp (suffix_scanUnsigned hnumber) with rfl | hsuffix
    · exact absurd hshorter (Nat.lt_irrefl _)
    · exact ⟨rfl, hsuffix⟩
  split at h
  case h_1 =>
    obtain ⟨rfl, rfl⟩ := Prod.mk.inj (Option.some.inj h)
    exact ⟨rfl, List.suffix_append [_, _, _] _⟩
  case h_2 =>
    obtain ⟨rfl, rfl⟩ := Prod.mk.inj (Option.some.inj h)
    exact ⟨rfl, List.suffix_append [_, _, _] _⟩
  case h_3 =>
    obtain ⟨rfl, rfl⟩ := Prod.mk.inj (Option.some.inj h)
    exact ⟨rfl, List.suffix_append [_, _, _, _] _⟩
  case h_4 => cases h

/-- In a text of plain characters nothing ends. -/
theorem closes_scan {cs : List Char} {tokens : List Token} (hplain : ∀ c ∈ cs, Plain c)
    (h : scan cs = some tokens) : ∀ token ∈ tokens, token.closes = false := by
  fun_induction scan cs generalizing tokens with
  | case1 =>
    cases h
    intro token hmem
    cases hmem
  | case2 c cs hblank ih => exact ih (fun d hd => hplain d (List.mem_cons_of_mem c hd)) h
  | case3 => cases h
  | case4 c cs hblank token rest hone hlength ih =>
    obtain ⟨others, hrest, rfl⟩ := Option.map_eq_some_iff.mp h
    obtain ⟨hfirst, hsuffix⟩ := scanOne_plain (hplain c List.mem_cons_self) hone
    have hothers := ih (fun d hd => hplain d (List.mem_cons_of_mem c (hsuffix.subset hd))) hrest
    exact List.forall_mem_cons.mpr ⟨hfirst, hothers⟩

end Token

/-! ### Brackets -/

namespace Value

open Token

/-- No beginning of the text ends more than `k` arrays and objects that it has not begun. -/
def Nested (k : Nat) (cs : List Char) : Prop :=
  ∀ part, part <+: cs → ∀ tokens, scan part = some tokens →
    tokens.countP Token.closes ≤ tokens.countP Token.opens + k

theorem nested_nil (k : Nat) : Nested k [] := by
  intro part hpart tokens h
  obtain rfl := List.prefix_nil.mp hpart
  rw [scan] at h
  cases h
  exact Nat.zero_le _

theorem countP_cons_toNat (p : Token → Bool) (token : Token) (tokens : List Token) :
    (token :: tokens).countP p = tokens.countP p + (p token).toNat := by
  rw [List.countP_cons]
  cases p token with
  | false => rfl
  | true => rfl

/-- A character that is a token by itself. -/
theorem nested_mark {c : Char} {token : Token} {k k' : Nat} {cs : List Char}
    (hblank : isBlank c = false) (hone : ∀ rest, scanOne c rest = some (token, rest))
    (hcount : token.closes.toNat + k' ≤ token.opens.toNat + k) (h : Nested k' cs) :
    Nested k (c :: cs) := by
  intro part hpart tokens hscan
  rcases List.prefix_cons_iff.mp hpart with rfl | ⟨part, rfl, hrest⟩
  · exact nested_nil k [] List.prefix_rfl tokens hscan
  · rw [scan_mark part hblank (hone part)] at hscan
    obtain ⟨others, hothers, rfl⟩ := Option.map_eq_some_iff.mp hscan
    have hpart := h part hrest others hothers
    rw [countP_cons_toNat, countP_cons_toNat]
    omega

/-- A beginning of a delimited text is delimited. -/
theorem delimited_of_part {part rest : List Char} (h : Delimited rest) (hpart : part <+: rest) :
    Delimited part := by
  intro c hc
  obtain ⟨more, rfl⟩ := hpart
  cases part with
  | nil => cases hc
  | cons d part => exact h c hc

/-- A token that is no closing bracket may stand anywhere. -/
theorem countP_closes_cons_le {token : Token} {tokens : List Token} {k : Nat}
    (hcloses : token.closes = false)
    (h : tokens.countP Token.closes ≤ tokens.countP Token.opens + k) :
    (token :: tokens).countP Token.closes ≤ (token :: tokens).countP Token.opens + k := by
  rw [countP_cons_toNat, countP_cons_toNat, hcloses, Bool.toNat_false]
  omega

/-- A text of plain characters that is one token, wherever it ends. -/
theorem nested_scalar {text rest : List Char} {k : Nat} (hplain : ∀ c ∈ text, Plain c)
    (hwhole : ∀ part, Delimited part → ∀ tokens, scan (text ++ part) = some tokens →
      ∃ token others, token.closes = false ∧ scan part = some others ∧ tokens = token :: others)
    (hrest : Delimited rest) (h : Nested k rest) : Nested k (text ++ rest) := by
  intro part hpart tokens hscan
  rcases prefix_append_cases hpart with hcut | ⟨more, rfl, hmore⟩
  · have hnone := closes_scan (fun c hc => hplain c (hcut.subset hc)) hscan
    rw [List.countP_eq_zero.mpr fun token hmem => by simp [hnone token hmem]]
    exact Nat.zero_le _
  · obtain ⟨token, others, hcloses, hothers, rfl⟩ :=
      hwhole more (delimited_of_part hrest hmore) tokens hscan
    exact countP_closes_cons_le hcloses (h more hmore others hothers)

theorem nested_renderString (text : List Char) {rest : List Char} {k : Nat} (h : Nested k rest) :
    Nested k (renderString text ++ rest) := by
  have hquote (more : List Char) :
      renderString text ++ more = '"' :: (text.flatMap escape ++ '"' :: more) := by
    simp [renderString]
  have hcut {part : List Char} (hpart : part <+: text.flatMap escape) :
      scan ('"' :: part) = none := by
    have hone : scanOne '"' part = none := congrArg (Option.map _) (scanString_cut hpart)
    rw [scan_cons part rfl, hone]
    rfl
  intro part hpart tokens hscan
  rw [hquote] at hpart
  rcases List.prefix_cons_iff.mp hpart with rfl | ⟨inner, rfl, hinner⟩
  · exact nested_nil k [] List.prefix_rfl tokens hscan
  rcases prefix_append_cases hinner with hinside | ⟨more, rfl, hmore⟩
  · rw [hcut hinside] at hscan
    cases hscan
  rcases List.prefix_cons_iff.mp hmore with rfl | ⟨more, rfl, hbehind⟩
  · rw [List.append_nil, hcut List.prefix_rfl] at hscan
    cases hscan
  · rw [← hquote, scan_renderString] at hscan
    obtain ⟨others, hothers, rfl⟩ := Option.map_eq_some_iff.mp hscan
    exact countP_closes_cons_le rfl (h more hbehind others hothers)

theorem plain_of_isDigit {c : Char} (h : c.isDigit = true) : Plain c := by
  refine ⟨?_, ?_, ?_⟩ <;> rintro rfl <;> simp at h

theorem plain_of_mem_render {literal : Number} {c : Char} (h : c ∈ literal.render) : Plain c := by
  cases literal with
  | natural value => exact plain_of_isDigit (Text.Decimal.isDigit_of_mem_digits h)
  | decimal negative significand exponent =>
    simp only [Number.render, List.mem_append, List.mem_cons] at h
    rcases h with ((h | h) | rfl | h) | h
    · split at h
      · obtain rfl := List.mem_singleton.mp h
        decide
      · cases h
    · exact plain_of_isDigit (Text.Decimal.isDigit_of_mem_digits h)
    · decide
    · split at h
      · obtain rfl := List.mem_singleton.mp h
        decide
      · cases h
    · exact plain_of_isDigit (Text.Decimal.isDigit_of_mem_digits h)

theorem nested_number (literal : Number) {rest : List Char} {k : Nat} (hrest : Delimited rest)
    (h : Nested k rest) : Nested k (literal.render ++ rest) := by
  refine nested_scalar (fun c hc => plain_of_mem_render hc) ?_ hrest h
  intro part hpart tokens hscan
  rw [scan_number literal hpart] at hscan
  obtain ⟨found, -, hmap⟩ := Option.bind_eq_some_iff.mp hscan
  obtain ⟨others, hothers, rfl⟩ := Option.map_eq_some_iff.mp hmap
  exact ⟨.number found, others, rfl, hothers, rfl⟩

/-- One of the three words. -/
theorem nested_word {c : Char} {w rest : List Char} {token : Token} {k : Nat}
    (hplain : (c :: w).all (Plain ·) = true) (hblank : isBlank c = false)
    (hone : ∀ more, scanOne c (w ++ more) = some (token, more)) (hcloses : token.closes = false)
    (hrest : Delimited rest) (h : Nested k rest) : Nested k (c :: w ++ rest) := by
  have hword : ∀ d ∈ c :: w, Plain d := fun d hd =>
    of_decide_eq_true (List.all_eq_true.mp hplain d hd)
  refine nested_scalar hword ?_ hrest h
  intro part _ tokens hscan
  rw [List.cons_append, scan_cons _ hblank, hone part] at hscan
  obtain ⟨others, hothers, rfl⟩ := Option.map_eq_some_iff.mp hscan
  exact ⟨token, others, hcloses, hothers, rfl⟩

theorem nested_comma {k : Nat} {cs : List Char} (h : Nested k cs) : Nested k (',' :: cs) :=
  nested_mark rfl (fun _ => rfl) (Nat.le_refl _) h

theorem nested_colon {k : Nat} {cs : List Char} (h : Nested k cs) : Nested k (':' :: cs) :=
  nested_mark rfl (fun _ => rfl) (Nat.le_refl _) h

theorem nested_openArray {k : Nat} {cs : List Char} (h : Nested (k + 1) cs) :
    Nested k ('[' :: cs) :=
  nested_mark rfl (fun _ => rfl) (by change 0 + (k + 1) ≤ 1 + k; omega) h

theorem nested_closeArray {k : Nat} {cs : List Char} (h : Nested k cs) :
    Nested (k + 1) (']' :: cs) :=
  nested_mark rfl (fun _ => rfl) (by change 1 + k ≤ 0 + (k + 1); omega) h

theorem nested_openObject {k : Nat} {cs : List Char} (h : Nested (k + 1) cs) :
    Nested k (Char.ofNat 0x7B :: cs) :=
  nested_mark rfl (fun _ => rfl) (by change 0 + (k + 1) ≤ 1 + k; omega) h

theorem nested_closeObject {k : Nat} {cs : List Char} (h : Nested k cs) :
    Nested (k + 1) (Char.ofNat 0x7D :: cs) :=
  nested_mark rfl (fun _ => rfl) (by change 1 + k ≤ 0 + (k + 1); omega) h

mutual

/-- A value ends what it begins, and nothing else. -/
theorem nested_render : ∀ (value : Value) {rest : List Char} {k : Nat}, Delimited rest →
    Nested k rest → Nested k (value.render ++ rest)
  | .null, rest, k, hrest, h =>
      nested_word (c := 'n') (w := ['u', 'l', 'l']) rfl rfl (fun _ => rfl) rfl hrest h
  | .boolean true, rest, k, hrest, h =>
      nested_word (c := 't') (w := ['r', 'u', 'e']) rfl rfl (fun _ => rfl) rfl hrest h
  | .boolean false, rest, k, hrest, h =>
      nested_word (c := 'f') (w := ['a', 'l', 's', 'e']) rfl rfl (fun _ => rfl) rfl hrest h
  | .number literal, rest, k, hrest, h => nested_number literal hrest h
  | .string text, rest, k, _, h => nested_renderString text h
  | .array items, rest, k, _, h => by
      rw [render, List.append_assoc, List.cons_append, List.singleton_append]
      exact nested_openArray
        (nested_renderItems items (delimited_closeArray rest) (nested_closeArray h))
  | .object members, rest, k, _, h => by
      rw [render, List.append_assoc, List.cons_append, List.singleton_append]
      exact nested_openObject
        (nested_renderMembers members (delimited_closeObject rest) (nested_closeObject h))

theorem nested_renderItems : ∀ (items : List Value) {rest : List Char} {k : Nat},
    Delimited rest → Nested k rest → Nested k (renderItems items ++ rest)
  | [], rest, k, _, h => h
  | [item], rest, k, hrest, h => nested_render item hrest h
  | item :: next :: items, rest, k, hrest, h => by
      change Nested k ((render item ++ ',' :: renderItems (next :: items)) ++ rest)
      rw [List.append_assoc, List.cons_append]
      exact nested_render item (delimited_comma _)
        (nested_comma (nested_renderItems (next :: items) hrest h))

theorem nested_renderMembers : ∀ (members : List (List Char × Value)) {rest : List Char} {k : Nat},
    Delimited rest → Nested k rest → Nested k (renderMembers members ++ rest)
  | [], rest, k, _, h => h
  | [(key, value)], rest, k, hrest, h => by
      change Nested k ((renderString key ++ ':' :: render value) ++ rest)
      rw [List.append_assoc, List.cons_append]
      exact nested_renderString key (nested_colon (nested_render value hrest h))
  | (key, value) :: (key', value') :: members, rest, k, hrest, h => by
      change Nested k ((renderString key ++ ':' :: render value ++
        ',' :: renderMembers ((key', value') :: members)) ++ rest)
      rw [List.append_assoc, List.append_assoc, List.cons_append, List.cons_append]
      exact nested_renderString key (nested_colon (nested_render value (delimited_comma _)
        (nested_comma (nested_renderMembers ((key', value') :: members) hrest h))))

end

/-! ### Frames that stay open -/

theorem length_beginValue {frames : List Frame} {token : Token}
    {state : Expectation × List Frame} (h : beginValue frames token = some state) :
    state.2.length + token.closes.toNat = frames.length + token.opens.toNat := by
  unfold beginValue at h
  split at h
  case h_5 | h_6 =>
    split at h
    · cases h
      rfl
    · cases h
  case h_7 => cases h
  all_goals
    cases h
    rfl

/-- A token adds a frame if it opens one, and takes one away if it closes it. -/
theorem length_advance {state state' : Expectation × List Frame} {token : Token}
    (h : advance state token = some state') :
    state'.2.length + token.closes.toNat = state.2.length + token.opens.toNat := by
  unfold advance at h
  split at h
  case h_2 | h_3 => exact length_beginValue h
  case h_12 => cases h
  all_goals
    cases h
    rfl

theorem length_foldlM_advance {tokens : List Token} {state state' : Expectation × List Frame}
    (h : tokens.foldlM advance state = some state') :
    state'.2.length + tokens.countP Token.closes = state.2.length + tokens.countP Token.opens := by
  induction tokens generalizing state with
  | nil =>
    cases h
    rfl
  | cons token tokens ih =>
    obtain ⟨between, hfirst, hrest⟩ := Option.bind_eq_some_iff.mp h
    have htoken := length_advance hfirst
    have htokens := ih hrest
    rw [countP_cons_toNat, countP_cons_toNat]
    omega

/-- What is read as a value ends all that it begins. -/
theorem countP_of_parse? {text : List Char} {value : Value} (h : parse? text = some value) :
    ∃ tokens, scan text = some tokens ∧
      tokens.countP Token.closes = tokens.countP Token.opens := by
  obtain ⟨tokens, hscan, hvalue⟩ := Option.bind_eq_some_iff.mp h
  refine ⟨tokens, hscan, ?_⟩
  unfold ofTokens? at hvalue
  split at hvalue
  · next value' hfold =>
    have hlength := length_foldlM_advance hfold
    simpa using hlength
  · cases hvalue

/-- **An object that is written but not to its end is not read.** -/
theorem parse?_of_cut {members : List (List Char × Value)} {part : List Char}
    (hpart : part <+: (Value.object members).render)
    (hcut : part ≠ (Value.object members).render) : parse? part = none := by
  rw [render] at hpart hcut
  rw [Option.eq_none_iff_forall_ne_some]
  intro value hvalue
  obtain ⟨tokens, hscan, hcount⟩ := countP_of_parse? hvalue
  rcases List.prefix_cons_iff.mp ((List.prefix_concat_iff.mp hpart).resolve_left hcut) with
    rfl | ⟨inner, rfl, hinner⟩
  · have hnothing : parse? [] = none := by
      rw [parse?, scan]
      rfl
    rw [hnothing] at hvalue
    cases hvalue
  · -- The first bracket is there, and what stands behind it does not end it.
    have hnested : Nested 0 (renderMembers members ++ []) :=
      nested_renderMembers members (fun c hc => by cases hc) (nested_nil 0)
    rw [List.append_nil] at hnested
    rw [scan_mark inner rfl rfl] at hscan
    obtain ⟨others, hothers, rfl⟩ := Option.map_eq_some_iff.mp hscan
    have hothersCount := hnested inner hinner others hothers
    rw [countP_cons_toNat, countP_cons_toNat] at hcount
    simp only [Token.opens, Token.closes, Bool.toNat_true, Bool.toNat_false] at hcount
    omega

end Value

end PspBoot.Json
