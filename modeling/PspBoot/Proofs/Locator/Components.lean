import PspBoot.Locator
import Mathlib.Data.List.DropRight

/-!
# Components of paths

The components of a path are what stands between its separators, where anything does.  Whatever is
read off a path can be told from how it ends (`Path.Form`): it has no component at all, or only one,
or there is a last one with a separator in front of it; and separators may follow.  `filename` is the
last component, `parent` leaves it out, `join` adds one, and `trimmed` changes none of them.

Two locators name the same place if they have the same scheme and the same components, and both or
neither of their paths begin with a separator (`Locator.SamePlace`).  They may still be different
locators, for a path is compared character by character.
-/

namespace PspBoot

namespace Text

variable {p : Char → Bool} {c : Char}

/-- A list is split at the last character of the kind. -/
theorem splitLast_append {back : List Char} (front : List Char) (hc : p c = true)
    (hback : ∀ d ∈ back, p d = false) : splitLast p (front ++ c :: back) = some (front, back) := by
  induction front with
  | nil => simp [splitLast, splitLast_eq_none.mpr hback, hc]
  | cons d front ih => rw [List.cons_append, splitLast, ih]

/-- What is cut off ends in front of the last character that is not of the kind. -/
theorem trimEnd_append {trail : List Char} (front : List Char) (hc : p c = false)
    (htrail : ∀ d ∈ trail, p d = true) : trimEnd p (front ++ c :: trail) = front ++ [c] := by
  rw [trimEnd, List.reverse_append, List.reverse_cons, List.append_assoc,
    List.dropWhile_append_of_pos fun d hd => htrail d (List.mem_reverse.mp hd)]
  simp [hc]

theorem trimEnd_eq_nil {cs : List Char} (h : ∀ d ∈ cs, p d = true) : trimEnd p cs = [] :=
  List.rdropWhile_eq_nil_iff.mpr h

end Text

namespace Path

/-- The components of a path. -/
def components (path : List Char) : List (List Char) :=
  (path.splitOnP isSeparator).filter (· ≠ [])

/-- Whether a path begins with a separator. -/
def isRooted (path : List Char) : Bool :=
  path.head?.any isSeparator

/-- The name of a component: not empty, and without separators. -/
structure IsName (name : List Char) : Prop where
  ne_nil : name ≠ []
  solid : ∀ c ∈ name, isSeparator c = false

/-- Nothing but separators. -/
def Separators (cs : List Char) : Prop :=
  ∀ c ∈ cs, isSeparator c = true

theorem Separators.nil : Separators [] := nofun

theorem eq_or_eq_of_separator {c : Char} (hc : isSeparator c = true) : c = '/' ∨ c = '\\' := by
  simpa [isSeparator] using hc

/-- How a path ends. -/
inductive Form : List Char → Prop where
  | separators {path : List Char} (hpath : Separators path) : Form path
  | bare {name trail : List Char} (hname : IsName name) (htrail : Separators trail) :
      Form (name ++ trail)
  | inside (front : List Char) {s : Char} {name trail : List Char} (hs : isSeparator s = true)
      (hname : IsName name) (htrail : Separators trail) : Form (front ++ s :: (name ++ trail))

variable {path front name trail child : List Char} {s : Char}

/-- **Every path has one of these forms.** -/
theorem form (path : List Char) : Form path := by
  cases hbody : Text.splitLast (fun c => !isSeparator c) path with
  | none =>
    refine .separators fun c hc => ?_
    simpa using Text.splitLast_eq_none.mp hbody c hc
  | some body =>
    obtain ⟨c, hc, rfl, hrest⟩ := Text.splitLast_eq_some hbody
    have htrail : Separators body.2 := fun d hd => by simpa using hrest d hd
    have hpath : body.1 ++ c :: body.2 = (body.1 ++ [c]) ++ body.2 := by simp
    rw [hpath]
    cases hname : Text.splitLast isSeparator (body.1 ++ [c]) with
    | none => exact .bare ⟨by simp, Text.splitLast_eq_none.mp hname⟩ htrail
    | some inner =>
      obtain ⟨s, hs, hinner, hsolid⟩ := Text.splitLast_eq_some hname
      rw [hinner, List.append_assoc, List.cons_append]
      refine .inside inner.1 hs ⟨?_, hsolid⟩ htrail
      -- The last character of the body is no separator, so the name is not empty.
      intro hnil
      rw [hnil] at hinner
      obtain ⟨-, rfl⟩ := List.append_inj' hinner rfl |>.imp_right List.singleton_inj.mp
      simp [hs] at hc

/-! ### What is read off a path -/

theorem trimmed_separators (hpath : Separators path) : trimmed path = path.take 1 := by
  rw [trimmed, Text.trimEnd_eq_nil hpath]

/-- Separators at the end are left out. -/
theorem trimmed_append (front : List Char) (hname : IsName name) (htrail : Separators trail) :
    trimmed (front ++ (name ++ trail)) = front ++ name := by
  obtain ⟨init, c, rfl⟩ := List.eq_nil_or_concat' name |>.resolve_left hname.ne_nil
  have hc : isSeparator c = false := hname.solid c (by simp)
  have htrim : Text.trimEnd isSeparator (front ++ (init ++ [c] ++ trail)) = front ++ (init ++ [c]) := by
    have hpath : front ++ (init ++ [c] ++ trail) = front ++ init ++ c :: trail := by simp
    rw [hpath, Text.trimEnd_append _ hc htrail, List.append_assoc]
  rw [trimmed, htrim]
  split
  · next hnil => simp at hnil
  · rfl

theorem trimmed_bare (hname : IsName name) (htrail : Separators trail) :
    trimmed (name ++ trail) = name :=
  trimmed_append [] hname htrail

theorem trimmed_inside (front : List Char) (s : Char) (hname : IsName name)
    (htrail : Separators trail) : trimmed (front ++ s :: (name ++ trail)) = front ++ s :: name := by
  have h := trimmed_append (front ++ [s]) hname htrail
  simpa using h

/-- The first character of a path of separators is the path that remains of it. -/
theorem splitLast_take_separators (hpath : Separators path) :
    Text.splitLast isSeparator (path.take 1) = none ∧ path = [] ∨
      Text.splitLast isSeparator (path.take 1) = some ([], []) := by
  cases path with
  | nil => exact .inl ⟨rfl, rfl⟩
  | cons s rest => 
    right
    simp [Text.splitLast, hpath s List.mem_cons_self]

theorem filename_separators (hpath : Separators path) : filename path = [] := by
  rw [filename, trimmed_separators hpath]
  rcases splitLast_take_separators hpath with ⟨hnone, rfl⟩ | hsome
  · rfl
  · rw [hsome]

theorem filename_bare (hname : IsName name) (htrail : Separators trail) :
    filename (name ++ trail) = name := by
  rw [filename, trimmed_bare hname htrail, Text.splitLast_eq_none.mpr hname.solid]

theorem filename_inside (front : List Char) (hs : isSeparator s = true) (hname : IsName name)
    (htrail : Separators trail) : filename (front ++ s :: (name ++ trail)) = name := by
  rw [filename, trimmed_inside front s hname htrail, Text.splitLast_append front hs hname.solid]

theorem parent_separators (hpath : Separators path) : parent path = path.take 1 := by
  rw [parent, trimmed_separators hpath]
  rcases splitLast_take_separators hpath with ⟨hnone, rfl⟩ | hsome
  · rfl
  · rw [hsome]
    exact List.take_take ..

theorem parent_bare (hname : IsName name) (htrail : Separators trail) :
    parent (name ++ trail) = name := by
  rw [parent, trimmed_bare hname htrail, Text.splitLast_eq_none.mpr hname.solid]

theorem parent_inside (front : List Char) (hs : isSeparator s = true) (hname : IsName name)
    (htrail : Separators trail) :
    parent (front ++ s :: (name ++ trail)) = if front = [] then [s] else front := by
  rw [parent, trimmed_inside front s hname htrail, Text.splitLast_append front hs hname.solid]
  cases front with
  | nil => rfl
  | cons c front => rfl

/-! ### Components -/

/-- **The components of a path are those in front of a separator and those behind it.** -/
theorem components_append (front back : List Char) (hs : isSeparator s = true) :
    components (front ++ s :: back) = components front ++ components back := by
  rw [components, List.splitOnP_append_cons front back hs, List.filter_append]
  rfl

@[simp] theorem components_nil : components [] = [] := by
  simp [components, List.splitOnP_nil]

theorem components_cons_separator (back : List Char) (hs : isSeparator s = true) :
    components (s :: back) = components back := by
  have h := components_append [] back hs
  simpa using h

theorem components_separators (hpath : Separators path) : components path = [] := by
  induction path with
  | nil => exact components_nil
  | cons s rest ih =>
    rw [components_cons_separator rest (hpath s List.mem_cons_self)]
    exact ih fun c hc => hpath c (List.mem_cons_of_mem s hc)

theorem components_name (hname : IsName name) : components name = [name] := by
  rw [components, List.splitOnP_eq_singleton hname.solid]
  simp [hname.ne_nil]

theorem components_bare (hname : IsName name) (htrail : Separators trail) :
    components (name ++ trail) = [name] := by
  cases trail with
  | nil => rw [List.append_nil, components_name hname]
  | cons s rest =>
    have hrest : Separators rest := fun c hc => htrail c (List.mem_cons_of_mem s hc)
    rw [components_append name rest (htrail s List.mem_cons_self), components_name hname,
      components_separators hrest, List.append_nil]

theorem components_inside (front : List Char) (hs : isSeparator s = true) (hname : IsName name)
    (htrail : Separators trail) :
    components (front ++ s :: (name ++ trail)) = components front ++ [name] := by
  rw [components_append front _ hs, components_bare hname htrail]

/-- The file name is the last component. -/
theorem filename_eq (path : List Char) : filename path = (components path).getLastD [] := by
  cases form path with
  | separators hpath => rw [filename_separators hpath, components_separators hpath]; rfl
  | bare hname htrail => rw [filename_bare hname htrail, components_bare hname htrail]; rfl
  | inside front hs hname htrail =>
    rw [filename_inside front hs hname htrail, components_inside front hs hname htrail]
    simp

theorem components_trimmed (path : List Char) : components (trimmed path) = components path := by
  cases form path with
  | separators hpath =>
    have htake : Separators (path.take 1) := fun c hc => hpath c (List.mem_of_mem_take hc)
    rw [trimmed_separators hpath, components_separators hpath, components_separators htake]
  | bare hname htrail =>
    rw [trimmed_bare hname htrail, components_bare hname htrail, components_name hname]
  | inside front hs hname htrail =>
    rw [trimmed_inside front _ hname htrail, components_inside front hs hname htrail,
      components_append front _ hs, components_name hname]

/-- The parent lacks the last component, if there is something in front of it. -/
theorem components_parent_inside (front : List Char) (hs : isSeparator s = true)
    (hname : IsName name) (htrail : Separators trail) :
    components (parent (front ++ s :: (name ++ trail))) = components front := by
  rw [parent_inside front hs hname htrail]
  split
  · next hfront => rw [hfront, components_cons_separator [] hs]
  · rfl

/-! ### Roots -/

theorem isRooted_append (rest : List Char) (hpath : path ≠ []) :
    isRooted (path ++ rest) = isRooted path := by
  obtain ⟨c, path, rfl⟩ := List.exists_cons_of_ne_nil hpath
  rfl

theorem isRooted_trimmed (path : List Char) : isRooted (trimmed path) = isRooted path := by
  cases form path with
  | separators hpath =>
    rw [trimmed_separators hpath]
    cases path with
    | nil => rfl
    | cons c rest => rfl
  | bare hname htrail => rw [trimmed_bare hname htrail, isRooted_append _ hname.ne_nil]
  | inside front hs hname htrail =>
    rw [trimmed_inside front _ hname htrail]
    cases front with
    | nil => rfl
    | cons c front => rfl

theorem isRooted_parent (path : List Char) : isRooted (parent path) = isRooted path := by
  cases form path with
  | separators hpath =>
    rw [parent_separators hpath, ← trimmed_separators hpath, isRooted_trimmed]
  | bare hname htrail => rw [parent_bare hname htrail, isRooted_append _ hname.ne_nil]
  | inside front hs hname htrail =>
    rw [parent_inside front hs hname htrail]
    split
    · next hfront => subst hfront; rfl
    · next hfront => rw [isRooted_append _ hfront]

/-! ### Joined paths -/

/-- The paths that `join` writes for a child: behind a root there is no further separator, and behind
a name there is a `/`. -/
inductive Joined (child : List Char) : List Char → Prop where
  | root {s : Char} (hs : isSeparator s = true) : Joined child (s :: child)
  | inside (front : List Char) {c : Char} (hc : isSeparator c = false) :
      Joined child (front ++ c :: '/' :: child)

/-- A path that is not empty is trimmed to a root, or to something that ends in a name. -/
theorem trimmed_cases (hpath : path ≠ []) :
    (∃ s, isSeparator s = true ∧ trimmed path = [s]) ∨
      ∃ front c, isSeparator c = false ∧ trimmed path = front ++ [c] := by
  cases form path with
  | separators hseparators =>
    obtain ⟨s, rest, rfl⟩ := List.exists_cons_of_ne_nil hpath
    exact .inl ⟨s, hseparators s List.mem_cons_self, trimmed_separators hseparators⟩
  | @bare name trail hname htrail =>
    obtain ⟨init, c, rfl⟩ := List.eq_nil_or_concat' name |>.resolve_left hname.ne_nil
    exact .inr ⟨init, c, hname.solid c (by simp), trimmed_bare hname htrail⟩
  | @inside front s name trail hs hname htrail =>
    obtain ⟨init, c, rfl⟩ := List.eq_nil_or_concat' name |>.resolve_left hname.ne_nil
    refine .inr ⟨front ++ s :: init, c, hname.solid c (by simp), ?_⟩
    rw [trimmed_inside front s hname htrail, List.append_assoc, List.cons_append]

theorem join_root (child : List Char) (hs : isSeparator s = true) (htrimmed : trimmed path = [s]) :
    join path child = s :: child := by
  rw [join, htrimmed]
  exact if_pos hs

theorem join_inside {c : Char} (child : List Char) (hc : isSeparator c = false)
    (htrimmed : trimmed path = front ++ [c]) : join path child = front ++ c :: '/' :: child := by
  rw [join, htrimmed, List.getLast?_concat]
  simp [hc]

theorem join_nil (child : List Char) : join [] child = child := rfl

theorem joined_join (child : List Char) (hpath : path ≠ []) : Joined child (join path child) := by
  rcases trimmed_cases hpath with ⟨s, hs, htrimmed⟩ | ⟨front, c, hc, htrimmed⟩
  · rw [join_root child hs htrimmed]
    exact .root hs
  · rw [join_inside child hc htrimmed]
    exact .inside front hc

/-- A joined path has one more component. -/
theorem components_join (path : List Char) (hchild : IsName child) :
    components (join path child) = components path ++ [child] := by
  by_cases hpath : path = []
  · rw [hpath, join_nil, components_name hchild, components_nil, List.nil_append]
  · rw [← components_trimmed path]
    rcases trimmed_cases hpath with ⟨s, hs, htrimmed⟩ | ⟨front, c, hc, htrimmed⟩
    · rw [join_root child hs htrimmed, htrimmed, components_cons_separator child hs,
        components_cons_separator [] hs, components_name hchild, components_nil, List.nil_append]
    · have hslash : front ++ c :: '/' :: child = (front ++ [c]) ++ '/' :: child := by simp
      rw [join_inside child hc htrimmed, htrimmed, hslash, components_append _ child (by decide),
        components_name hchild]

theorem isRooted_join (child : List Char) (hpath : path ≠ []) :
    isRooted (join path child) = isRooted path := by
  rw [← isRooted_trimmed path]
  rcases trimmed_cases hpath with ⟨s, hs, htrimmed⟩ | ⟨front, c, hc, htrimmed⟩
  · rw [join_root child hs htrimmed, htrimmed]
    rfl
  · rw [join_inside child hc htrimmed, htrimmed]
    cases front with
    | nil => rfl
    | cons d front => rfl

/-! ### Down and up again -/

/-- What was joined to a path is its file name. -/
theorem filename_join (path : List Char) (hchild : IsName child) :
    filename (join path child) = child := by
  rw [filename_eq, components_join path hchild, List.getLastD_concat]

/-- **The parent of what was joined to a path is the path without its trailing separators.** -/
theorem parent_join (hpath : path ≠ []) (hchild : IsName child) :
    parent (join path child) = trimmed path := by
  rcases trimmed_cases hpath with ⟨s, hs, htrimmed⟩ | ⟨front, c, hc, htrimmed⟩
  · have hparent := parent_inside [] hs hchild .nil
    rw [join_root child hs htrimmed, htrimmed]
    simpa using hparent
  · have hparent := parent_inside (front ++ [c]) (s := '/') (by decide) hchild .nil
    rw [join_inside child hc htrimmed, htrimmed]
    simpa using hparent

theorem parent_ne_nil (hpath : path ≠ []) : parent path ≠ [] := by
  cases form path with
  | separators hseparators => simpa [parent_separators hseparators] using hpath
  | bare hname htrail => simpa [parent_bare hname htrail] using hname.ne_nil
  | inside front hs hname htrail =>
    rw [parent_inside front hs hname htrail]
    split
    · simp
    · assumption

/-- A path with a file name is that name alone, or has the name behind its parent. -/
theorem alone_or_inside (hname : IsName name) (hfile : filename path = name) :
    (trimmed path = name ∧ parent path = name ∧ components path = [name]) ∨
      (trimmed path ≠ name ∧ components path = components (parent path) ++ [name]) := by
  cases form path with
  | separators hpath => exact absurd ((filename_separators hpath).symm.trans hfile) hname.ne_nil.symm
  | bare hbare htrail =>
    rw [filename_bare hbare htrail] at hfile
    subst hfile
    exact .inl ⟨trimmed_bare hname htrail, parent_bare hname htrail, components_bare hname htrail⟩
  | inside front hs hinside htrail =>
    rw [filename_inside front hs hinside htrail] at hfile
    subst hfile
    refine .inr ⟨?_, ?_⟩
    · rw [trimmed_inside front _ hname htrail]
      intro heq
      have hlength := congrArg List.length heq
      rw [List.length_append, List.length_cons] at hlength
      omega
    · rw [components_inside front hs hname htrail, components_parent_inside front hs hname htrail]

/-- **A path is joined again from its parent and its file name exactly if `join` wrote it.** -/
theorem join_parent_iff (hname : IsName name) (hfile : filename path = name) :
    join (parent path) name = path ↔ Joined name path := by
  constructor
  · intro heq
    have hpath : path ≠ [] := by
      rintro rfl
      exact hname.ne_nil hfile.symm
    have hjoined := joined_join name (parent_ne_nil hpath)
    rwa [heq] at hjoined
  · intro hjoined
    cases hjoined with
    | @root s hs =>
      have hparent := parent_inside [] hs hname .nil
      have htrimmed : trimmed [s] = [s] := trimmed_separators (by simpa [Separators] using hs)
      rw [List.nil_append, List.append_nil, if_pos rfl] at hparent
      rw [hparent, join_root name hs htrimmed]
    | @inside front c hc =>
      have hparent := parent_inside (front ++ [c]) (s := '/') (by decide) hname .nil
      have hlast : IsName [c] := ⟨by simp, by simpa using hc⟩
      have htrimmed := trimmed_append front hlast .nil
      rw [List.append_nil] at hparent htrimmed
      rw [List.append_assoc, List.singleton_append, if_neg (by simp)] at hparent
      rw [hparent, join_inside name hc htrimmed]

end Path

end PspBoot
