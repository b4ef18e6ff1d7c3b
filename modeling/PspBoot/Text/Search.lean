/-!
# Searching and splitting character lists

Paths are examined as lists of characters.  The operations here split a list around its last
character of a kind and look for a substring; they are all structural recursions, so that laws
about paths follow the characters.
-/

namespace PspBoot.Text

/-- The parts in front of and behind the last character that satisfies `p`. -/
def splitLast (p : Char → Bool) : List Char → Option (List Char × List Char)
  | [] => none
  | c :: cs =>
      match splitLast p cs with
      | some (front, back) => some (c :: front, back)
      | none => if p c then some ([], cs) else none

/-- The pieces between the occurrences of `mark`; one more than there are occurrences. -/
def splitAt (mark : Char) : List Char → List (List Char)
  | [] => [[]]
  | c :: cs =>
      if c = mark then
        [] :: splitAt mark cs
      else
        match splitAt mark cs with
        | [] => [[c]]
        | piece :: pieces => (c :: piece) :: pieces

/-- The list without its longest tail of characters that satisfy `p`. -/
def trimEnd (p : Char → Bool) (cs : List Char) : List Char :=
  (cs.reverse.dropWhile p).reverse

/-- The tail of the text that begins with the first occurrence of `needle`. -/
def fromFirst? (needle : List Char) : List Char → Option (List Char)
  | [] => if needle.isEmpty then some [] else none
  | c :: cs =>
      if needle.isPrefixOf (c :: cs) then some (c :: cs) else fromFirst? needle cs

/-- Whether `needle` occurs as a substring of the text. -/
def occursIn (needle text : List Char) : Bool :=
  (fromFirst? needle text).isSome

/-- A split names the character it was made at, and none of the kind stands behind it. -/
theorem splitLast_eq_some {p : Char → Bool} {cs front back : List Char}
    (h : splitLast p cs = some (front, back)) :
    ∃ c, p c = true ∧ cs = front ++ c :: back ∧ ∀ d ∈ back, p d = false := by
  induction cs generalizing front with
  | nil => simp [splitLast] at h
  | cons c cs ih =>
    rw [splitLast] at h
    split at h
    · next front' back' hrest =>
      obtain ⟨rfl, rfl⟩ := Prod.mk.inj (Option.some.inj h)
      obtain ⟨d, hd, rfl, hback⟩ := ih hrest
      exact ⟨d, hd, rfl, hback⟩
    · next hrest =>
      split at h
      · next hc =>
        obtain ⟨rfl, rfl⟩ := Prod.mk.inj (Option.some.inj h)
        refine ⟨c, hc, rfl, ?_⟩
        clear ih h
        induction cs with
        | nil => simp
        | cons d ds ih =>
          rw [splitLast] at hrest
          split at hrest
          · simp at hrest
          · next hds =>
            split at hrest
            · simp at hrest
            · next hd => simpa [hd] using ih hds
      · simp at h

/-- There is nothing to split at exactly when no character is of the kind. -/
theorem splitLast_eq_none {p : Char → Bool} {cs : List Char} :
    splitLast p cs = none ↔ ∀ c ∈ cs, p c = false := by
  induction cs with
  | nil => simp [splitLast]
  | cons c cs ih =>
    rw [splitLast]
    split
    · next front back hrest =>
      have : ¬ ∀ d ∈ cs, p d = false := by simp [← ih, hrest]
      simp only [reduceCtorEq, List.mem_cons, forall_eq_or_imp, false_iff, not_and]
      exact fun _ h => this h
    · next hrest =>
      have hcs := ih.mp hrest
      simpa using fun _ => hcs

/-- What is found begins with the needle and ends with the text. -/
theorem of_fromFirst?_eq_some {needle text rest : List Char}
    (h : fromFirst? needle text = some rest) : needle <+: rest ∧ rest <:+ text := by
  induction text with
  | nil =>
    rw [fromFirst?] at h
    split at h
    · next hempty =>
      obtain rfl : [] = rest := Option.some.inj h
      rw [List.isEmpty_iff.mp hempty]
      exact ⟨List.prefix_refl _, List.suffix_refl _⟩
    · cases h
  | cons c cs ih =>
    rw [fromFirst?] at h
    split at h
    · next hhere =>
      obtain rfl : c :: cs = rest := Option.some.inj h
      exact ⟨List.isPrefixOf_iff_prefix.mp hhere, List.suffix_refl _⟩
    · exact ⟨(ih h).1, (ih h).2.trans (List.suffix_cons c cs)⟩

/-- Nothing is found exactly where the needle does not occur. -/
theorem fromFirst?_eq_none {needle text : List Char} :
    fromFirst? needle text = none ↔ ¬ needle <:+: text := by
  induction text with
  | nil =>
    rw [fromFirst?, List.infix_nil]
    cases needle with
    | nil => simp
    | cons => simp
  | cons c cs ih =>
    rw [fromFirst?, List.infix_cons_iff, ← List.isPrefixOf_iff_prefix]
    split
    · next hhere => simp [hhere]
    · next hhere => simp [hhere, ih]

theorem occursIn_iff {needle text : List Char} :
    occursIn needle text = true ↔ needle <:+: text := by
  rw [occursIn, Option.isSome_iff_ne_none, Ne, fromFirst?_eq_none, Decidable.not_not]

end PspBoot.Text
