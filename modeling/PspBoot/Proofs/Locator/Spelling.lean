import Mathlib.Data.List.Forall2
import PspBoot.Proofs.Locator.GameDirectory

/-!
# The spelling of separators

A path may be written with `/` or with `\` in the place of any of its separators.  Such spellings are
different paths, but what is read off them is the same: their normalized forms are equal, and every
operation on paths goes with `normalized`, or does not depend on how separators are written at all
(`Locator.Respelled`).
-/

namespace PspBoot

namespace Path

variable {path other child name trail : List Char} {c d : Char}

/-- The paths differ at most in which separator stands in which place. -/
def Respells : (path other : List Char) → Prop :=
  List.Forall₂ fun c d => c = d ∨ isSeparator c = true ∧ isSeparator d = true

/-- A character of a normalized path. -/
def slashed (c : Char) : Char :=
  if c == '\\' then '/' else c

theorem normalized_eq_map (path : List Char) : normalized path = path.map slashed := rfl

theorem slashed_of_separator (hc : isSeparator c = true) : slashed c = '/' := by
  rcases eq_or_eq_of_separator hc with rfl | rfl
  · decide
  · decide

theorem utf8Size_of_separator (hc : isSeparator c = true) : c.utf8Size = 1 := by
  rcases eq_or_eq_of_separator hc with rfl | rfl
  · decide
  · decide

theorem slashed_of_solid (hc : isSeparator c = false) : slashed c = c := by
  have hother : c ≠ '\\' := by
    rintro rfl
    cases hc
  simp [slashed, hother]

theorem isSeparator_slashed (c : Char) : isSeparator (slashed c) = isSeparator c := by
  cases hc : isSeparator c with
  | true =>
    rw [slashed_of_separator hc]
    rfl
  | false => rw [slashed_of_solid hc, hc]

/-- Two characters become the same just if they are the same, or both of them are separators. -/
theorem slashed_eq_iff :
    slashed c = slashed d ↔ c = d ∨ isSeparator c = true ∧ isSeparator d = true := by
  constructor
  · intro h
    have hsame : isSeparator c = isSeparator d := by
      rw [← isSeparator_slashed c, h, isSeparator_slashed]
    cases hc : isSeparator c with
    | true => exact .inr ⟨rfl, hsame ▸ hc⟩
    | false => exact .inl (by rwa [slashed_of_solid hc, slashed_of_solid (hsame ▸ hc)] at h)
  · rintro (rfl | ⟨hc, hd⟩)
    · rfl
    · rw [slashed_of_separator hc, slashed_of_separator hd]

/-- **Spellings of one path are the paths with one normalized form.** -/
theorem respells_iff : Respells path other ↔ normalized path = normalized other := by
  have hsame : (fun c d => slashed c = slashed d) =
      fun c d => c = d ∨ isSeparator c = true ∧ isSeparator d = true :=
    funext fun c => funext fun d => propext slashed_eq_iff
  rw [Respells, ← hsame, normalized_eq_map, normalized_eq_map, ← List.forall₂_eq_eq_eq,
    List.forall₂_map_left_iff, List.forall₂_map_right_iff]

/-- Both separators take one byte. -/
theorem Respells.utf8ByteSize_eq (h : Respells path other) :
    (String.ofList path).utf8ByteSize = (String.ofList other).utf8ByteSize := by
  induction h with
  | nil => rfl
  | @cons c d path other hsame _ ih =>
    rw [String.ofList_cons, String.ofList_cons, String.utf8ByteSize_append,
      String.utf8ByteSize_append, ih, String.utf8ByteSize_singleton, String.utf8ByteSize_singleton]
    rcases hsame with rfl | ⟨hc, hd⟩
    · rfl
    · rw [utf8Size_of_separator hc, utf8Size_of_separator hd]

/-! ### Normalized paths -/

theorem normalized_append (path rest : List Char) :
    normalized (path ++ rest) = normalized path ++ normalized rest :=
  List.map_append

theorem normalized_name (hname : IsName name) : normalized name = name := by
  have hsolid : ∀ c ∈ name, slashed c = c := fun c hc => slashed_of_solid (hname.solid c hc)
  exact (List.map_congr_left hsolid).trans (List.map_id' name)

theorem Separators.normalized (hpath : Separators path) : Separators (normalized path) := by
  intro c hc
  rw [normalized_eq_map] at hc
  obtain ⟨s, hs, rfl⟩ := List.mem_map.mp hc
  rw [isSeparator_slashed, hpath s hs]

theorem normalized_inside (front : List Char) (s : Char) (hname : IsName name) (trail : List Char) :
    normalized (front ++ s :: (name ++ trail)) =
      normalized front ++ slashed s :: (name ++ normalized trail) := by
  rw [normalized_append, normalized_eq_map (s :: _), List.map_cons, ← normalized_eq_map,
    normalized_append, normalized_name hname]

theorem trimmed_normalized (path : List Char) :
    trimmed (normalized path) = normalized (trimmed path) := by
  cases form path with
  | separators hpath =>
    rw [trimmed_separators hpath, trimmed_separators hpath.normalized]
    exact List.map_take.symm
  | bare hname htrail =>
    rw [trimmed_bare hname htrail, normalized_append, normalized_name hname,
      trimmed_bare hname htrail.normalized]
  | @inside front s name trail hs hname htrail =>
    have hbody := normalized_inside front s hname []
    rw [List.append_nil, normalized_eq_map [], List.map_nil, List.append_nil] at hbody
    rw [trimmed_inside front s hname htrail, normalized_inside front s hname, hbody,
      trimmed_inside _ _ hname htrail.normalized]

/-- A file name has no separators, and so no spelling. -/
theorem filename_normalized (path : List Char) : filename (normalized path) = filename path := by
  cases form path with
  | separators hpath => rw [filename_separators hpath, filename_separators hpath.normalized]
  | bare hname htrail =>
    rw [filename_bare hname htrail, normalized_append, normalized_name hname,
      filename_bare hname htrail.normalized]
  | @inside front s name trail hs hname htrail =>
    have hslash : isSeparator (slashed s) = true := by rw [isSeparator_slashed, hs]
    rw [filename_inside front hs hname htrail, normalized_inside front s hname,
      filename_inside _ hslash hname htrail.normalized]

theorem parent_normalized (path : List Char) :
    parent (normalized path) = normalized (parent path) := by
  cases form path with
  | separators hpath =>
    rw [parent_separators hpath, parent_separators hpath.normalized]
    exact List.map_take.symm
  | bare hname htrail =>
    rw [parent_bare hname htrail, normalized_append, normalized_name hname,
      parent_bare hname htrail.normalized]
  | @inside front s name trail hs hname htrail =>
    have hslash : isSeparator (slashed s) = true := by rw [isSeparator_slashed, hs]
    rw [parent_inside front hs hname htrail, normalized_inside front s hname,
      parent_inside _ hslash hname htrail.normalized]
    cases front with
    | nil => rfl
    | cons c front => rfl

theorem join_normalized (path child : List Char) :
    join (normalized path) (normalized child) = normalized (join path child) := by
  rw [join, join, trimmed_normalized]
  rcases List.eq_nil_or_concat' (trimmed path) with hnil | ⟨front, c, hbody⟩
  · rw [hnil]
    rfl
  · have hnormalized : normalized (front ++ [c]) = normalized front ++ [slashed c] :=
      normalized_append front [c]
    rw [hbody, hnormalized]
    simp only [List.getLast?_append, List.getLast?_singleton, Option.some_or, isSeparator_slashed]
    rw [← hnormalized]
    split
    · exact (normalized_append _ child).symm
    · exact (normalized_append _ ('/' :: child)).symm

end Path

namespace Locator

/-- The locators have the same scheme, and their paths differ at most in the spelling of
separators. -/
structure Respelled (locator other : Locator) : Prop where
  scheme_eq : locator.scheme = other.scheme
  path : Path.Respells locator.path.toList other.path.toList

/-- What is read off one locator is read off the other, up to the spelling of separators. -/
structure ReadsAs (locator other : Locator) : Prop where
  filename : locator.filename = other.filename
  extension : locator.extension = other.extension
  parent : locator.parent.normalized = other.parent.normalized
  join : ∀ child, (locator.join child).normalized = (other.join child).normalized
  contains : ∀ needle, locator.contains needle = other.contains needle

namespace Respelled

variable {locator other : Locator} (h : locator.Respelled other)
include h

theorem normalized_toList_eq :
    Path.normalized locator.path.toList = Path.normalized other.path.toList :=
  Path.respells_iff.mp h.path

theorem normalized_eq : locator.normalized = other.normalized :=
  congrArg String.ofList h.normalized_toList_eq

theorem filename_eq : locator.filename = other.filename := by
  rw [filename, filename, ← Path.filename_normalized, h.normalized_toList_eq,
    Path.filename_normalized]

theorem extension_eq : locator.extension = other.extension := by
  have hname : Path.filename locator.path.toList = Path.filename other.path.toList :=
    String.ofList_inj.mp h.filename_eq
  rw [extension, extension, Path.extension, Path.extension, hname]

theorem contains_eq (needle : String) : locator.contains needle = other.contains needle := by
  rw [contains, contains, h.normalized_toList_eq]

/-- The parents are respelled in their turn. -/
theorem parent : locator.parent.Respelled other.parent where
  scheme_eq := h.scheme_eq
  path := by
    rw [Path.respells_iff, toList_path_parent, toList_path_parent, ← Path.parent_normalized,
      h.normalized_toList_eq, Path.parent_normalized]

/-- So is what is joined to them. -/
theorem join (child : String) : (locator.join child).Respelled (other.join child) where
  scheme_eq := h.scheme_eq
  path := by
    rw [Path.respells_iff, toList_path_join, toList_path_join, ← Path.join_normalized,
      h.normalized_toList_eq, Path.join_normalized]

theorem size_eq : locator.size = other.size := by
  have hsize := h.path.utf8ByteSize_eq
  rwa [String.ofList_toList, String.ofList_toList] at hsize

theorem isEmpty_eq : locator.isEmpty = other.isEmpty := by
  have hlength := h.path.length_eq
  rw [Bool.eq_iff_iff, isEmpty, isEmpty, List.isEmpty_iff_length_eq_zero,
    List.isEmpty_iff_length_eq_zero, hlength]

/-- **Everything is read off a locator without regard to the spelling of separators.** -/
theorem readsAs : locator.ReadsAs other where
  filename := h.filename_eq
  extension := h.extension_eq
  parent := h.parent.normalized_eq
  join child := (h.join child).normalized_eq
  contains := h.contains_eq

end Respelled

end Locator

end PspBoot
