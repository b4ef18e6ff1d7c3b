import PspBoot.Proofs.Json.Token

/-!
# Values read back

What is written for a value is read back as the value, but for its numbers, which may come back
as other ones or not at all: `parse?_render` says that reading a written value is `reading` it.
The proof goes through the tokens of the value: writing and scanning gives the tokens, and going
through them gives the value.
-/

namespace PspBoot.Json.Value

mutual

/-- The tokens of a value. -/
def tokens : Value → List Token
  | .null => [.null]
  | .boolean value => [.boolean value]
  | .number literal => [.number literal]
  | .string text => [.string text]
  | .array items => .openArray :: tokensOfItems items ++ [.closeArray]
  | .object members => .openObject :: tokensOfMembers members ++ [.closeObject]

def tokensOfItems : List Value → List Token
  | [] => []
  | [item] => tokens item
  | item :: items => tokens item ++ .comma :: tokensOfItems items

def tokensOfMembers : List (List Char × Value) → List Token
  | [] => []
  | [(key, value)] => .string key :: .colon :: tokens value
  | (key, value) :: members =>
      .string key :: .colon :: tokens value ++ .comma :: tokensOfMembers members

end

mutual

/-- The value with its numbers as they are read back; nothing if one of them is not. -/
def reading : Value → Option Value
  | .null => some .null
  | .boolean value => some (.boolean value)
  | .number literal => literal.reading.map .number
  | .string text => some (.string text)
  | .array items => (readingOfItems items).map .array
  | .object members => (readingOfMembers members).map .object

def readingOfItems : List Value → Option (List Value)
  | [] => some []
  | item :: items =>
      (reading item).bind fun item => (readingOfItems items).map (item :: ·)

def readingOfMembers : List (List Char × Value) → Option (List (List Char × Value))
  | [] => some []
  | (key, value) :: members =>
      (reading value).bind fun value => (readingOfMembers members).map ((key, value) :: ·)

end

mutual

/-- How many arrays and objects stand inside one another. -/
def depth : Value → Nat
  | .null | .boolean _ | .number _ | .string _ => 0
  | .array items => depthOfItems items + 1
  | .object members => depthOfMembers members + 1

def depthOfItems : List Value → Nat
  | [] => 0
  | item :: items => max (depth item) (depthOfItems items)

def depthOfMembers : List (List Char × Value) → Nat
  | [] => 0
  | (_, value) :: members => max (depth value) (depthOfMembers members)

end

/-! ### From the text to the tokens -/

theorem delimited_comma (rest : List Char) : Token.Delimited (',' :: rest) := by
  intro c hc
  exact .inl (Option.some.inj hc).symm

theorem delimited_closeArray (rest : List Char) : Token.Delimited (']' :: rest) := by
  intro c hc
  exact .inr (.inl (Option.some.inj hc).symm)

theorem delimited_closeObject (rest : List Char) :
    Token.Delimited (Char.ofNat 0x7D :: rest) := by
  intro c hc
  exact .inr (.inr (Option.some.inj hc).symm)

theorem scan_mark {c : Char} {token : Token} (cs : List Char) (hblank : Token.isBlank c = false)
    (hone : Token.scanOne c cs = some (token, cs)) :
    Token.scan (c :: cs) = (Token.scan cs).map (token :: ·) := by
  rw [Token.scan_cons cs hblank, hone]
  rfl

mutual

theorem scan_render : ∀ (value : Value) {rest : List Char}, Token.Delimited rest →
    Token.scan (value.render ++ rest) =
      value.reading.bind fun found => (Token.scan rest).map (found.tokens ++ ·)
  | .null, rest, _ => by
      change Token.scan ('n' :: ("ull".toList ++ rest)) = _
      rw [Token.scan_cons _ rfl]
      rfl
  | .boolean true, rest, _ => by
      change Token.scan ('t' :: ("rue".toList ++ rest)) = _
      rw [Token.scan_cons _ rfl]
      rfl
  | .boolean false, rest, _ => by
      change Token.scan ('f' :: ("alse".toList ++ rest)) = _
      rw [Token.scan_cons _ rfl]
      rfl
  | .number literal, rest, h => by
      rw [render, Token.scan_number literal h, reading, Option.bind_map]
      rfl
  | .string text, rest, _ => by
      rw [render, Token.scan_renderString]
      rfl
  | .array items, rest, _ => by
      rw [render, List.append_assoc, List.cons_append, scan_mark _ rfl rfl, List.singleton_append,
        scan_renderItems items (delimited_closeArray rest), scan_mark rest rfl rfl, reading]
      cases readingOfItems items with
      | none => rfl
      | some found => simp [tokens, Function.comp_def]
  | .object members, rest, _ => by
      rw [render, List.append_assoc, List.cons_append, scan_mark _ rfl rfl, List.singleton_append,
        scan_renderMembers members (delimited_closeObject rest), scan_mark rest rfl rfl, reading]
      cases readingOfMembers members with
      | none => rfl
      | some found => simp [tokens, Function.comp_def]

theorem scan_renderItems : ∀ (items : List Value) {rest : List Char}, Token.Delimited rest →
    Token.scan (renderItems items ++ rest) =
      (readingOfItems items).bind fun found => (Token.scan rest).map (tokensOfItems found ++ ·)
  | [], rest, _ => by
      simp [renderItems, readingOfItems, tokensOfItems]
  | [item], rest, h => by
      rw [renderItems, scan_render item h, readingOfItems, readingOfItems]
      cases reading item with
      | none => rfl
      | some found => rfl
  | item :: next :: items, rest, h => by
      change Token.scan ((render item ++ ',' :: renderItems (next :: items)) ++ rest) = _
      rw [List.append_assoc, List.cons_append, scan_render item (delimited_comma _),
        scan_mark _ rfl rfl, scan_renderItems (next :: items) h]
      simp only [readingOfItems]
      cases reading item with
      | none => rfl
      | some first =>
        cases reading next with
        | none => rfl
        | some second =>
          cases readingOfItems items with
          | none => rfl
          | some found => simp [tokensOfItems, Function.comp_def]

theorem scan_renderMembers : ∀ (members : List (List Char × Value)) {rest : List Char},
    Token.Delimited rest →
    Token.scan (renderMembers members ++ rest) =
      (readingOfMembers members).bind fun found =>
        (Token.scan rest).map (tokensOfMembers found ++ ·)
  | [], rest, _ => by
      simp [renderMembers, readingOfMembers, tokensOfMembers]
  | [(key, value)], rest, h => by
      change Token.scan ((renderString key ++ ':' :: render value) ++ rest) = _
      rw [List.append_assoc, List.cons_append, Token.scan_renderString, scan_mark _ rfl rfl,
        scan_render value h, readingOfMembers, readingOfMembers]
      cases reading value with
      | none => rfl
      | some found => simp [tokensOfMembers, Function.comp_def]
  | (key, value) :: (key', value') :: members, rest, h => by
      change Token.scan ((renderString key ++ ':' :: render value ++
        ',' :: renderMembers ((key', value') :: members)) ++ rest) = _
      rw [List.append_assoc, List.append_assoc, List.cons_append, List.cons_append,
        Token.scan_renderString, scan_mark _ rfl rfl, scan_render value (delimited_comma _),
        scan_mark _ rfl rfl, scan_renderMembers ((key', value') :: members) h]
      simp only [readingOfMembers]
      cases reading value with
      | none => rfl
      | some first =>
        cases reading value' with
        | none => rfl
        | some second =>
          cases readingOfMembers members with
          | none => rfl
          | some found => simp [tokensOfMembers, Function.comp_def]

end

/-! ### From the tokens to the value -/

/-- A value is expected, whether or not an array could end instead. -/
def Expectation.isValue : Expectation → Prop
  | .value | .item => True
  | _ => False

/-- A key is expected, whether or not an object could end instead. -/
def Expectation.isKey : Expectation → Prop
  | .key | .firstKey => True
  | _ => False

theorem advance_key {expected : Expectation} (h : expected.isKey) (frames : List Frame)
    (key : List Char) : advance (expected, frames) (.string key) = some (.colon key, frames) := by
  cases expected with
  | key => rfl
  | firstKey =>
    cases frames with
    | nil => rfl
    | cons frame frames => cases frame <;> rfl
  | _ => cases h

theorem advance_of_isValue {expected : Expectation} (h : expected.isValue) (frames : List Frame)
    {token : Token} (hclose : token ≠ .closeArray) :
    advance (expected, frames) token = beginValue frames token := by
  cases expected with
  | value => rfl
  | item =>
    cases frames with
    | nil => rfl
    | cons frame frames => cases frame <;> cases token <;> first | rfl | exact absurd rfl hclose
  | _ => cases h

mutual

/-- Going through the tokens of a value, wherever a value is expected, gives the value. -/
theorem foldlM_tokens : ∀ (value : Value) (frames : List Frame) {expected : Expectation}
    (rest : List Token), expected.isValue → value.depth + frames.length ≤ maxDepth →
    (value.tokens ++ rest).foldlM advance (expected, frames) =
      rest.foldlM advance (.following value, frames)
  | .null, frames, expected, rest, h, _ => by
      rw [tokens, List.singleton_append, List.foldlM_cons, advance_of_isValue h _ (by simp)]
      rfl
  | .boolean value, frames, expected, rest, h, _ => by
      rw [tokens, List.singleton_append, List.foldlM_cons, advance_of_isValue h _ (by simp)]
      rfl
  | .number literal, frames, expected, rest, h, _ => by
      rw [tokens, List.singleton_append, List.foldlM_cons, advance_of_isValue h _ (by simp)]
      rfl
  | .string text, frames, expected, rest, h, _ => by
      rw [tokens, List.singleton_append, List.foldlM_cons, advance_of_isValue h _ (by simp)]
      rfl
  | .array items, frames, expected, rest, h, hdepth => by
      rw [depth] at hdepth
      rw [tokens, List.append_assoc, List.cons_append, List.foldlM_cons,
        advance_of_isValue h _ (by simp), beginValue, if_pos (by omega), List.singleton_append]
      by_cases hempty : items = []
      · subst hempty
        rfl
      · exact foldlM_tokensOfItems items [] frames rest hempty
          (show Expectation.item.isValue from trivial) (by omega)
  | .object members, frames, expected, rest, h, hdepth => by
      rw [depth] at hdepth
      rw [tokens, List.append_assoc, List.cons_append, List.foldlM_cons,
        advance_of_isValue h _ (by simp), beginValue, if_pos (by omega), List.singleton_append]
      by_cases hempty : members = []
      · subst hempty
        rfl
      · exact foldlM_tokensOfMembers members [] frames rest hempty
          (show Expectation.firstKey.isKey from trivial) (by omega)

/-- The items behind those that have been read, up to the end of the array. -/
theorem foldlM_tokensOfItems : ∀ (items done : List Value) (frames : List Frame)
    {expected : Expectation} (rest : List Token), items ≠ [] → expected.isValue →
    depthOfItems items + 1 + frames.length ≤ maxDepth →
    (tokensOfItems items ++ .closeArray :: rest).foldlM advance (expected, .array done :: frames) =
      rest.foldlM advance (.following (.array (done.reverse ++ items)), frames)
  | [], _, _, _, _, hne, _, _ => absurd rfl hne
  | [item], done, frames, expected, rest, _, h, hdepth => by
      simp only [depthOfItems] at hdepth
      rw [tokensOfItems, foldlM_tokens item _ _ h (by simp only [List.length_cons]; omega),
        List.foldlM_cons, advance]
      simp
  | item :: next :: items, done, frames, expected, rest, _, h, hdepth => by
      simp only [depthOfItems] at hdepth
      rw [tokensOfItems.eq_3 _ _ (by simp), List.append_assoc, List.cons_append,
        foldlM_tokens item _ _ h (by simp only [List.length_cons]; omega), List.foldlM_cons,
        advance]
      have hrest := foldlM_tokensOfItems (next :: items) (item :: done) frames rest
        (List.cons_ne_nil _ _) (show Expectation.value.isValue from trivial)
        (by simp only [depthOfItems]; omega)
      rw [List.reverse_cons, List.append_assoc, List.singleton_append] at hrest
      exact hrest

/-- The members behind those that have been read, up to the end of the object. -/
theorem foldlM_tokensOfMembers : ∀ (members done : List (List Char × Value))
    (frames : List Frame) {expected : Expectation} (rest : List Token), members ≠ [] →
    expected.isKey → depthOfMembers members + 1 + frames.length ≤ maxDepth →
    (tokensOfMembers members ++ .closeObject :: rest).foldlM advance
        (expected, .object done :: frames) =
      rest.foldlM advance (.following (.object (done.reverse ++ members)), frames)
  | [], _, _, _, _, hne, _, _ => absurd rfl hne
  | [(key, value)], done, frames, expected, rest, _, h, hdepth => by
      simp only [depthOfMembers] at hdepth
      rw [tokensOfMembers, List.cons_append, List.cons_append, List.foldlM_cons, advance_key h]
      change List.foldlM advance (.value, .keyed done key :: frames) _ = _
      rw [foldlM_tokens value _ _ (show Expectation.value.isValue from trivial)
        (by simp only [List.length_cons]; omega), List.foldlM_cons, advance]
      simp
  | (key, value) :: (key', value') :: members, done, frames, expected, rest, _, h, hdepth => by
      simp only [depthOfMembers] at hdepth
      rw [tokensOfMembers.eq_3 _ _ _ (by simp), List.append_assoc, List.cons_append,
        List.cons_append, List.cons_append, List.foldlM_cons, advance_key h]
      change List.foldlM advance (.value, .keyed done key :: frames) _ = _
      rw [foldlM_tokens value _ _ (show Expectation.value.isValue from trivial)
        (by simp only [List.length_cons]; omega), List.foldlM_cons, advance]
      have hrest := foldlM_tokensOfMembers ((key', value') :: members) ((key, value) :: done)
        frames rest (List.cons_ne_nil _ _) (show Expectation.key.isKey from trivial)
        (by simp only [depthOfMembers]; omega)
      rw [List.reverse_cons, List.append_assoc, List.singleton_append] at hrest
      exact hrest

end

/-! ### From the text to the value -/

mutual

/-- Numbers have no depth, so a value that is read back has that of the value written. -/
theorem depth_of_reading : ∀ (value : Value) {found : Value}, value.reading = some found →
    found.depth = value.depth
  | .null, found, h => by cases h; rfl
  | .boolean value, found, h => by cases h; rfl
  | .number literal, found, h => by
      obtain ⟨literal', -, rfl⟩ := Option.map_eq_some_iff.mp h
      rfl
  | .string text, found, h => by cases h; rfl
  | .array items, found, h => by
      obtain ⟨items', hitems, rfl⟩ := Option.map_eq_some_iff.mp h
      rw [depth, depth, depthOfItems_of_reading items hitems]
  | .object members, found, h => by
      obtain ⟨members', hmembers, rfl⟩ := Option.map_eq_some_iff.mp h
      rw [depth, depth, depthOfMembers_of_reading members hmembers]

theorem depthOfItems_of_reading : ∀ (items : List Value) {found : List Value},
    readingOfItems items = some found → depthOfItems found = depthOfItems items
  | [], found, h => by cases h; rfl
  | item :: items, found, h => by
      obtain ⟨first, hfirst, hmap⟩ := Option.bind_eq_some_iff.mp h
      obtain ⟨rest, hrest, rfl⟩ := Option.map_eq_some_iff.mp hmap
      rw [depthOfItems, depthOfItems, depth_of_reading item hfirst,
        depthOfItems_of_reading items hrest]

theorem depthOfMembers_of_reading : ∀ (members : List (List Char × Value))
    {found : List (List Char × Value)},
    readingOfMembers members = some found → depthOfMembers found = depthOfMembers members
  | [], found, h => by cases h; rfl
  | (key, value) :: members, found, h => by
      obtain ⟨first, hfirst, hmap⟩ := Option.bind_eq_some_iff.mp h
      obtain ⟨rest, hrest, rfl⟩ := Option.map_eq_some_iff.mp hmap
      rw [depthOfMembers, depthOfMembers, depth_of_reading value hfirst,
        depthOfMembers_of_reading members hrest]

end

theorem ofTokens?_tokens {value : Value} (h : value.depth ≤ maxDepth) :
    ofTokens? value.tokens = some value := by
  have hrun := foldlM_tokens value [] [] (show Expectation.value.isValue from trivial) h
  rw [List.append_nil] at hrun
  rw [ofTokens?, hrun]
  rfl

/-- **A written value is read back**, with its numbers as they are read back. -/
theorem parse?_render {value : Value} (h : value.depth ≤ maxDepth) :
    parse? value.render = value.reading := by
  have hdelimited : Token.Delimited [] := by
    intro c hc
    cases hc
  have hscan := scan_render value hdelimited
  rw [List.append_nil, Token.scan] at hscan
  rw [parse?, hscan]
  cases hreading : value.reading with
  | none => rfl
  | some found =>
    change ofTokens? (found.tokens ++ []) = some found
    rw [List.append_nil]
    apply ofTokens?_tokens
    rw [depth_of_reading value hreading]
    exact h

end PspBoot.Json.Value
