import PspBoot.Proofs.Locator.GameDirectory
import Mathlib.Logic.Function.Iterate

/-!
# Parents and children

`Locator.join` goes down to a child and `Locator.parent` up again.  The way down and up leads back,
but for separators at the end of a path, which nothing restores (`Path.Trims`); the way up and down
leads back from every path that is written plainly (`Path.IsPlain`).

A parent is a beginning of the path that it is the parent of.  So whoever goes up again and again
arrives somewhere (`Locator.parent_laws`), at a root or at a single name.
-/

namespace PspBoot

namespace Path

variable {path child : List Char}

/-- What is left of a path without the separators at its end; of a path of separators alone the
first one is left. -/
inductive Trims : (path kept : List Char) → Prop where
  | body (front : List Char) {c : Char} {trail : List Char} (hc : isSeparator c = false)
      (htrail : Separators trail) : Trims (front ++ c :: trail) (front ++ [c])
  | root {s : Char} {trail : List Char} (hs : isSeparator s = true) (htrail : Separators trail) :
      Trims (s :: trail) [s]

/-- There is nothing to be left out: the path does not end in a separator, or is a single one. -/
def IsTrimmed (path : List Char) : Prop :=
  (∀ c ∈ path.getLast?, isSeparator c = false) ∨ ∃ s, isSeparator s = true ∧ path = [s]

/-- A path that is written plainly: with `/` between its components, one at a time, and none at its
end. -/
structure IsPlain (path : List Char) : Prop where
  slash : '/' ∈ path
  noBackslash : '\\' ∉ path
  single : ∀ s t, isSeparator s = true → isSeparator t = true → ¬[s, t] <:+: path
  solid : ∀ c ∈ path.getLast?, isSeparator c = false

/-! ### Trimmed paths -/

theorem trims_trimmed (hpath : path ≠ []) : Trims path (trimmed path) := by
  have hname {name trail : List Char} (front : List Char) (hname : IsName name)
      (htrail : Separators trail) : Trims (front ++ (name ++ trail)) (front ++ name) := by
    obtain ⟨init, c, rfl⟩ := List.eq_nil_or_concat' name |>.resolve_left hname.ne_nil
    have hbody := Trims.body (front ++ init) (hname.solid c (by simp)) htrail
    simpa using hbody
  cases form path with
  | separators hseparators =>
    obtain ⟨s, rest, rfl⟩ := List.exists_cons_of_ne_nil hpath
    rw [trimmed_separators hseparators]
    exact .root (hseparators s List.mem_cons_self)
      fun c hc => hseparators c (List.mem_cons_of_mem s hc)
  | bare hbare htrail =>
    rw [trimmed_bare hbare htrail]
    exact hname [] hbare htrail
  | @inside front s name trail hs hinside htrail =>
    rw [trimmed_inside front s hinside htrail]
    have hbody := hname (front ++ [s]) hinside htrail
    simpa using hbody

theorem trimmed_of_isTrimmed (h : IsTrimmed path) : trimmed path = path := by
  rcases h with hlast | ⟨s, hs, rfl⟩
  · by_cases hpath : path = []
    · rw [hpath]
      rfl
    · obtain ⟨front, c, rfl⟩ := List.eq_nil_or_concat' path |>.resolve_left hpath
      have hc : isSeparator c = false := hlast c (by simp)
      have hname : IsName [c] := ⟨by simp, by simpa using hc⟩
      simpa using trimmed_append front hname .nil
  · exact trimmed_separators (by simpa [Separators] using hs)

/-! ### Up and down -/

/-- Where the last character is no separator, nothing trails. -/
theorem Separators.eq_nil (front : List Char) {trail : List Char} (htrail : Separators trail)
    (hsolid : ∀ c ∈ (front ++ trail).getLast?, isSeparator c = false) : trail = [] := by
  by_contra hsome
  obtain ⟨init, c, rfl⟩ := List.eq_nil_or_concat' trail |>.resolve_left hsome
  have hc : isSeparator c = false := hsolid c (by simp [← List.append_assoc])
  rw [htrail c (by simp)] at hc
  cases hc

/-- A plain path is its file name behind a root, or behind another name and a `/`. -/
theorem IsPlain.joined (h : IsPlain path) :
    IsName (filename path) ∧ Joined (filename path) path := by
  cases form path with
  | separators hpath =>
    obtain rfl : path = [] := hpath.eq_nil [] h.solid
    cases h.slash
  | bare hname htrail =>
    obtain rfl := htrail.eq_nil _ h.solid
    rw [List.append_nil] at h
    have hslash := hname.solid _ h.slash
    cases hslash
  | @inside front s name trail hs hname htrail =>
    obtain rfl : trail = [] :=
      htrail.eq_nil (front ++ s :: name) (by simpa using h.solid)
    rw [filename_inside front hs hname .nil, List.append_nil]
    refine ⟨hname, ?_⟩
    rcases List.eq_nil_or_concat' front with rfl | ⟨init, c, rfl⟩
    · exact .root hs
    · have hc : isSeparator c = false := by
        rw [← Bool.not_eq_true]
        intro hc
        exact h.single c s hc hs ⟨init, name, by simp⟩
      have hother : s ≠ '\\' := by
        rintro rfl
        exact h.noBackslash (by simp)
      obtain rfl : s = '/' := by simpa [isSeparator, hother] using hs
      rw [List.append_assoc, List.singleton_append]
      exact .inside init hc

/-! ### Further and further up -/

/-- **A parent is a beginning of the path.** -/
theorem parent_isPrefix (path : List Char) : parent path <+: path := by
  cases form path with
  | separators hpath =>
    rw [parent_separators hpath]
    exact List.take_prefix 1 path
  | bare hname htrail =>
    rw [parent_bare hname htrail]
    exact List.prefix_append _ _
  | @inside front s name trail hs hname htrail =>
    rw [parent_inside front hs hname htrail]
    split
    · next hfront =>
      rw [hfront]
      exact List.prefix_append [s] _
    · exact List.prefix_append _ _

/-- Whoever goes up often enough arrives, at the latest after as many steps as the path has
characters. -/
theorem exists_parent_iterate_eq (path : List Char) :
    ∃ n ≤ path.length, parent (parent^[n] path) = parent^[n] path := by
  induction hlength : path.length using Nat.strong_induction_on generalizing path with
  | _ length ih =>
    subst hlength
    by_cases hfixed : parent path = path
    · exact ⟨0, Nat.zero_le _, hfixed⟩
    · have hshort : (parent path).length < path.length :=
        Nat.lt_of_le_of_ne (parent_isPrefix path).length_le
          fun heq => hfixed ((parent_isPrefix path).eq_of_length heq)
      obtain ⟨n, hn, hend⟩ := ih _ hshort (parent path) rfl
      exact ⟨n + 1, Nat.le_trans (Nat.succ_le_succ hn) hshort, hend⟩

end Path

namespace Locator

variable {locator : Locator}

theorem toList_path_parent_iterate (locator : Locator) (n : Nat) :
    (parent^[n] locator).path.toList = Path.parent^[n] locator.path.toList := by
  induction n generalizing locator with
  | zero => rfl
  | succ n ih => rw [Function.iterate_succ_apply, ih, toList_path_parent,
      Function.iterate_succ_apply]

/-- A parent takes no more bytes. -/
theorem size_parent_le (locator : Locator) : locator.parent.size ≤ locator.size := by
  obtain ⟨rest, hrest⟩ := Path.parent_isPrefix locator.path.toList
  have hpath : locator.path = locator.parent.path ++ String.ofList rest := by
    rw [← String.toList_inj, String.toList_append, toList_path_parent, String.toList_ofList, hrest]
  rw [size, size, hpath, String.utf8ByteSize_append]
  exact Nat.le_add_right _ _

/-- What occurs in a parent occurs in the whole path. -/
theorem contains_of_parent {needle : String} (h : locator.parent.contains needle = true) :
    locator.contains needle = true := by
  rw [contains, Text.occursIn_iff] at h ⊢
  rw [toList_path_parent] at h
  exact h.trans ((Path.parent_isPrefix locator.path.toList).map _).isInfix

/-- **How parents and children fit together.**  A child that is joined to a path is its file name, and
the parent of the two is the path without the separators at its end.  From a plain path the way to its
parent and down again leads back.  A parent is no longer than what it is the parent of, and whoever
goes up again and again arrives. -/
theorem parent_laws (locator : Locator) :
    (locator.path ≠ "" → ∀ child : String, Path.IsName child.toList →
      (locator.join child).filename = child ∧
      (locator.join child).parent.scheme = locator.scheme ∧
      Path.Trims locator.path.toList (locator.join child).parent.path.toList ∧
      (Path.IsTrimmed locator.path.toList → (locator.join child).parent = locator)) ∧
    (Path.IsPlain locator.path.toList → locator.parent.join locator.filename = locator) ∧
    locator.parent.size ≤ locator.size ∧
    ∃ n ≤ locator.path.toList.length, (parent^[n] locator).parent = parent^[n] locator := by
  refine ⟨fun hpath child hchild => ?_, fun hplain => ?_, size_parent_le locator, ?_⟩
  · have hnil : locator.path.toList ≠ [] := fun heq => hpath (String.toList_eq_nil_iff.mp heq)
    have hscheme : (locator.join child).parent.scheme = locator.scheme := by
      rw [scheme_parent, scheme_join]
    have hparent :
        (locator.join child).parent.path.toList = Path.trimmed locator.path.toList := by
      rw [toList_path_parent, toList_path_join, Path.parent_join hnil hchild]
    refine ⟨?_, hscheme, ?_, fun htrimmed => ?_⟩
    · rw [filename_eq_iff, toList_path_join]
      exact Path.filename_join _ hchild
    · rw [hparent]
      exact Path.trims_trimmed hnil
    · rw [ext_iff_of_scheme hscheme, hparent]
      exact Path.trimmed_of_isTrimmed htrimmed
  · obtain ⟨hname, hjoined⟩ := hplain.joined
    have hscheme : (locator.parent.join locator.filename).scheme = locator.scheme := by
      rw [scheme_join, scheme_parent]
    rw [ext_iff_of_scheme hscheme, toList_path_join, toList_path_parent, filename,
      String.toList_ofList]
    exact (Path.join_parent_iff hname rfl).mpr hjoined
  · obtain ⟨n, hn, hend⟩ := Path.exists_parent_iterate_eq locator.path.toList
    refine ⟨n, hn, (ext_iff_of_scheme (scheme_parent _)).mpr ?_⟩
    rw [toList_path_parent, toList_path_parent_iterate, hend]

/-- Down to a game and up again on a memory stick; and a mix of separators at the end of a path is
left out. -/
theorem parent_laws_memoryStick :
    let games : Locator := { scheme := .localFile, path := "ms0:/PSP/GAME" }
    let untidy : Locator := { scheme := .custom "doc", path := "doc:\\\\GAME\\/" }
    games.path ≠ "" ∧ Path.IsName "DEMO".toList ∧ Path.IsPlain games.path.toList ∧
      (games.join "DEMO").filename = "DEMO" ∧ (games.join "DEMO").parent = games ∧
      games.parent.join games.filename = games ∧
      untidy.path ≠ "" ∧ (untidy.join "DEMO").filename = "DEMO" ∧
      (untidy.join "DEMO").parent = { untidy with path := "doc:\\\\GAME" } := by
  intro games untidy
  have hpath : games.path ≠ "" := by decide
  have huntidy : untidy.path ≠ "" := by decide
  have hchild : Path.IsName "DEMO".toList := ⟨by decide, by simp [Path.isSeparator]⟩
  have hplain : Path.IsPlain games.path.toList := by
    refine ⟨by decide, by decide, fun s t hs ht => ?_, by simp [games, Path.isSeparator]⟩
    rw [← Text.fromFirst?_eq_none]
    rcases Path.eq_or_eq_of_separator hs with rfl | rfl
    · rcases Path.eq_or_eq_of_separator ht with rfl | rfl
      · decide
      · decide
    · rcases Path.eq_or_eq_of_separator ht with rfl | rfl
      · decide
      · decide
  obtain ⟨hdown, hback, -⟩ := parent_laws games
  obtain ⟨hname, -, -, hparent⟩ := hdown hpath "DEMO" hchild
  obtain ⟨hname', -⟩ := (parent_laws untidy).1 huntidy "DEMO" hchild
  exact ⟨hpath, hchild, hplain, hname, hparent (.inl hplain.solid), hback hplain, huntidy, hname',
    by decide⟩

end Locator

end PspBoot
