import PspBoot.Proofs.Locator.Components

/-!
# From a container to its game directory, and back

`Locator.gameDirectory` leads from an executable container to its directory, and `Locator.gameFile`
from a directory to the container in it.  Both are computed from the path alone.  So the way there
and back ends at the same place, but for one exception: a directory that is itself called like a
container is taken for one.  And it ends with the same locator exactly if the path was written as
`Path.join` writes it (`Locator.there_and_back_iff`): separators at the end, repeated ones, and a `\` in
front of the container are not restored.
-/

namespace PspBoot

namespace Locator

open PspBoot.Path (IsName Joined Separators)

variable {locator other : Locator}

/-- The path without its trailing separators; a path of separators alone keeps its first. -/
def trimmed (locator : Locator) : String :=
  String.ofList (Path.trimmed locator.path.toList)

/-- Two locators that lead to the same place, in the same way and through the same directories. -/
structure SamePlace (locator other : Locator) : Prop where
  scheme : locator.scheme = other.scheme
  root : Path.isRooted locator.path.toList = Path.isRooted other.path.toList
  components : Path.components locator.path.toList = Path.components other.path.toList

theorem SamePlace.of_eq (h : locator = other) : locator.SamePlace other := by
  subst h
  exact ⟨rfl, rfl, rfl⟩

theorem isName_ebootName : IsName ebootName.toList where
  ne_nil := by decide
  solid := by simp [ebootName, Path.isSeparator]

/-! ### Characters and texts -/

theorem toList_path_parent (locator : Locator) :
    locator.parent.path.toList = Path.parent locator.path.toList :=
  String.toList_ofList

theorem toList_path_join (locator : Locator) (child : String) :
    (locator.join child).path.toList = Path.join locator.path.toList child.toList :=
  String.toList_ofList

theorem ext_iff_of_scheme (h : locator.scheme = other.scheme) :
    locator = other ↔ locator.path.toList = other.path.toList := by
  obtain ⟨scheme, path⟩ := locator
  obtain ⟨_, path'⟩ := other
  obtain rfl : scheme = _ := h
  simp [String.toList_inj]

theorem filename_eq_iff (locator : Locator) (name : String) :
    locator.filename = name ↔ Path.filename locator.path.toList = name.toList := by
  rw [filename, ← String.toList_inj, String.toList_ofList]

theorem trimmed_eq_iff (locator : Locator) (text : String) :
    locator.trimmed = text ↔ Path.trimmed locator.path.toList = text.toList := by
  rw [trimmed, ← String.toList_inj, String.toList_ofList]

/-! ### The way to the directory and back -/

theorem gameDirectory_of_name (h : locator.filename = ebootName) :
    locator.gameDirectory = locator.parent := if_pos h

theorem gameDirectory_of_ne (h : locator.filename ≠ ebootName) : locator.gameDirectory = locator :=
  if_neg h

theorem gameFile_of_name (h : locator.filename = ebootName) : locator.gameFile = locator := if_pos h

theorem gameFile_of_ne (h : locator.filename ≠ ebootName) :
    locator.gameFile = locator.join ebootName := if_neg h

theorem gameFile_eq_self_iff (locator : Locator) :
    locator.gameFile = locator ↔ locator.filename = ebootName := by
  constructor
  · intro h
    by_cases hname : locator.filename = ebootName
    · exact hname
    · rw [gameFile_of_ne hname] at h
      rw [filename_eq_iff, ← h, toList_path_join]
      exact Path.filename_join _ isName_ebootName
  · exact gameFile_of_name

/-- The last two components of the path are both the name of a container. -/
def IsNested (locator : Locator) : Prop :=
  [ebootName.toList, ebootName.toList] <:+ Path.components locator.path.toList

/-- A container that stands alone, or that `Path.join` has put into a directory. -/
def IsWritten (locator : Locator) : Prop :=
  locator.path = ebootName ∨ Joined ebootName.toList locator.path.toList

/-- Where the way to the directory and back ends, for the locator of a container. -/
inductive Ends (locator : Locator) : Locator → Prop where
  /-- There is nothing in front of the name. -/
  | alone (hparent : Path.parent locator.path.toList = ebootName.toList)
      (hcomponents : Path.components locator.path.toList = [ebootName.toList]) :
      Ends locator locator.parent
  /-- The directory is taken for the container. -/
  | nested (hparent : locator.parent.filename = ebootName)
      (hcomponents : Path.components locator.path.toList =
        Path.components locator.parent.path.toList ++ [ebootName.toList]) :
      Ends locator locator.parent
  | inside (hparent : locator.parent.filename ≠ ebootName)
      (hcomponents : Path.components locator.path.toList =
        Path.components locator.parent.path.toList ++ [ebootName.toList]) :
      Ends locator (locator.parent.join ebootName)

theorem ends (h : locator.filename = ebootName) : Ends locator locator.gameDirectory.gameFile := by
  have hfile := (filename_eq_iff locator ebootName).mp h
  rw [gameDirectory_of_name h]
  rcases Path.alone_or_inside isName_ebootName hfile with ⟨-, hparent, halone⟩ | ⟨-, hinside⟩
  · have hname : locator.parent.filename = ebootName := by
      rw [filename_eq_iff, toList_path_parent, hparent]
      decide
    rw [gameFile_of_name hname]
    exact .alone hparent halone
  · rw [← toList_path_parent] at hinside
    by_cases hname : locator.parent.filename = ebootName
    · rw [gameFile_of_name hname]
      exact .nested hname hinside
    · rw [gameFile_of_ne hname]
      exact .inside hname hinside

theorem samePlace_parent_iff : locator.parent.SamePlace locator ↔
    Path.components (Path.parent locator.path.toList) = Path.components locator.path.toList := by
  constructor
  · intro h
    rw [← toList_path_parent]
    exact h.components
  · intro h
    rw [← toList_path_parent] at h
    exact ⟨scheme_parent locator, by rw [toList_path_parent, Path.isRooted_parent], h⟩

/-- A directory is no other place than the container in it. -/
theorem not_samePlace_parent (hcomponents : Path.components locator.path.toList =
      Path.components locator.parent.path.toList ++ [ebootName.toList]) :
    ¬locator.parent.SamePlace locator := by
  intro hsame
  have hlength := congrArg List.length (hsame.components.trans hcomponents)
  rw [List.length_append, List.length_singleton] at hlength
  omega

/-- A container is put back into its directory. -/
theorem samePlace_join_parent (hcomponents : Path.components locator.path.toList =
      Path.components locator.parent.path.toList ++ [ebootName.toList]) :
    (locator.parent.join ebootName).SamePlace locator where
  scheme := (scheme_join _ _).trans (scheme_parent locator)
  root := by
    have hpath : locator.path.toList ≠ [] := by
      intro hnil
      rw [hnil] at hcomponents
      simp at hcomponents
    rw [toList_path_join, toList_path_parent, Path.isRooted_join _ (Path.parent_ne_nil hpath),
      Path.isRooted_parent]
  components := by rw [toList_path_join, Path.components_join _ isName_ebootName, hcomponents]

/-- The directory is called like a container exactly if its last component is that name. -/
theorem filename_parent_eq_iff :
    locator.parent.filename = ebootName ↔
      [ebootName.toList, ebootName.toList] <:+
        Path.components locator.parent.path.toList ++ [ebootName.toList] := by
  rw [filename_eq_iff, Path.filename_eq]
  rcases List.eq_nil_or_concat' (Path.components locator.parent.path.toList) with h | ⟨init, last, h⟩
  · rw [h]
    decide
  · rw [h, List.getLastD_concat]
    constructor
    · rintro rfl
      exact ⟨init, by simp⟩
    · rintro ⟨front, hfront⟩
      have hsplit : (front ++ [ebootName.toList]) ++ [ebootName.toList] =
          (init ++ [last]) ++ [ebootName.toList] := by
        simpa using hfront
      have hlast := (List.append_inj' hsplit rfl).1
      exact (List.singleton_inj.mp (List.append_inj' hlast rfl).2).symm

/-- **The way to the directory and back ends at the same place** unless the directory is itself called
like a container. -/
theorem samePlace_gameFile_gameDirectory (h : locator.filename = ebootName) :
    locator.gameDirectory.gameFile.SamePlace locator ↔ ¬locator.IsNested := by
  have hends := ends h
  generalize locator.gameDirectory.gameFile = back at hends ⊢
  rw [IsNested]
  cases hends with
  | alone hparent hcomponents =>
    rw [samePlace_parent_iff, hparent, hcomponents]
    decide
  | nested hparent hcomponents =>
    refine iff_of_false (not_samePlace_parent hcomponents) (not_not_intro ?_)
    rw [hcomponents]
    exact filename_parent_eq_iff.mp hparent
  | inside hparent hcomponents =>
    refine iff_of_true (samePlace_join_parent hcomponents) fun hnested => hparent ?_
    rw [hcomponents] at hnested
    exact filename_parent_eq_iff.mpr hnested

/-- **And it ends with the same locator** if the path is written as `Path.join` writes it. -/
theorem gameFile_gameDirectory_eq_iff (h : locator.filename = ebootName) :
    locator.gameDirectory.gameFile = locator ↔
      locator.gameDirectory.gameFile.SamePlace locator ∧ locator.IsWritten := by
  have hfile := (filename_eq_iff locator ebootName).mp h
  have hjoin := Path.join_parent_iff isName_ebootName hfile
  have hends := ends h
  generalize locator.gameDirectory.gameFile = back at hends ⊢
  cases hends with
  | alone hparent hcomponents =>
    rw [ext_iff_of_scheme (scheme_parent locator), toList_path_parent, samePlace_parent_iff, hparent,
      hcomponents, IsWritten, ← String.toList_inj]
    constructor
    · exact fun heq => ⟨by decide, .inl heq.symm⟩
    · rintro ⟨-, heq | hjoined⟩
      · exact heq.symm
      · -- With the name joined to it, the parent has one component more than the container.
        have heq := congrArg Path.components (hjoin.mpr hjoined)
        rw [Path.components_join _ isName_ebootName, hparent, hcomponents,
          Path.components_name isName_ebootName] at heq
        cases heq
  | nested hparent hcomponents =>
    have hother := not_samePlace_parent hcomponents
    exact iff_of_false (fun heq => hother (.of_eq heq)) fun hsame => hother hsame.1
  | inside hparent hcomponents =>
    rw [ext_iff_of_scheme ((scheme_join _ _).trans (scheme_parent locator)), toList_path_join,
      toList_path_parent, hjoin]
    constructor
    · exact fun hjoined => ⟨samePlace_join_parent hcomponents, .inr hjoined⟩
    · rintro ⟨-, hpath | hjoined⟩
      · refine absurd ?_ hparent
        rw [filename_eq_iff, toList_path_parent, hpath]
        decide
      · exact hjoined

/-! ### The way to the container and back -/

/-- The container of a directory that has another name leads back to the directory. -/
theorem path_gameDirectory_gameFile (hpath : locator.path ≠ "") (h : locator.filename ≠ ebootName) :
    locator.gameFile.gameDirectory.path.toList = Path.trimmed locator.path.toList := by
  have hnil : locator.path.toList ≠ [] := fun heq => hpath (String.toList_eq_nil_iff.mp heq)
  have hname : (locator.join ebootName).filename = ebootName := by
    rw [filename_eq_iff, toList_path_join]
    exact Path.filename_join _ isName_ebootName
  rw [gameFile_of_ne h, gameDirectory_of_name hname, toList_path_parent, toList_path_join,
    Path.parent_join hnil isName_ebootName]

theorem scheme_gameDirectory (locator : Locator) :
    locator.gameDirectory.scheme = locator.scheme := by
  by_cases h : locator.filename = ebootName
  · rw [gameDirectory_of_name h, scheme_parent]
  · rw [gameDirectory_of_ne h]

theorem scheme_gameFile (locator : Locator) : locator.gameFile.scheme = locator.scheme := by
  by_cases h : locator.filename = ebootName
  · rw [gameFile_of_name h]
  · rw [gameFile_of_ne h, scheme_join]

/-- **The way to the container and back ends at the same place** unless the directory is called like a
container and has something in front of its name. -/
theorem samePlace_gameDirectory_gameFile (hpath : locator.path ≠ "") :
    locator.gameFile.gameDirectory.SamePlace locator ↔
      (locator.filename = ebootName → locator.trimmed = ebootName) := by
  by_cases h : locator.filename = ebootName
  · have hfile := (filename_eq_iff locator ebootName).mp h
    rw [gameFile_of_name h, gameDirectory_of_name h, samePlace_parent_iff, trimmed_eq_iff]
    rcases Path.alone_or_inside isName_ebootName hfile with
      ⟨htrimmed, hparent, hcomponents⟩ | ⟨htrimmed, hcomponents⟩
    · rw [hparent, hcomponents]
      exact iff_of_true (by decide) fun _ => htrimmed
    · refine iff_of_false (fun hsame => ?_) fun himp => htrimmed (himp h)
      have hlength := congrArg List.length (hsame.trans hcomponents)
      rw [List.length_append, List.length_singleton] at hlength
      omega
  · refine iff_of_true ⟨?_, ?_, ?_⟩ fun hname => absurd hname h
    · rw [scheme_gameDirectory, scheme_gameFile]
    · rw [path_gameDirectory_gameFile hpath h, Path.isRooted_trimmed]
    · rw [path_gameDirectory_gameFile hpath h, Path.components_trimmed]

/-- **And it ends with the same locator** if no separators have to be left out at its end. -/
theorem gameDirectory_gameFile_eq_iff (hpath : locator.path ≠ "") :
    locator.gameFile.gameDirectory = locator ↔
      locator.gameFile.gameDirectory.SamePlace locator ∧ locator.trimmed = locator.path := by
  have hscheme : locator.gameFile.gameDirectory.scheme = locator.scheme := by
    rw [scheme_gameDirectory, scheme_gameFile]
  rw [samePlace_gameDirectory_gameFile hpath, ext_iff_of_scheme hscheme,
    trimmed_eq_iff locator locator.path]
  by_cases h : locator.filename = ebootName
  · have hfile := (filename_eq_iff locator ebootName).mp h
    rw [gameFile_of_name h, gameDirectory_of_name h, toList_path_parent, trimmed_eq_iff]
    rcases Path.alone_or_inside isName_ebootName hfile with
      ⟨htrimmed, hparent, -⟩ | ⟨htrimmed, hcomponents⟩
    · rw [hparent, htrimmed]
      exact ⟨fun heq => ⟨fun _ => rfl, heq⟩, fun hboth => hboth.2⟩
    · refine iff_of_false (fun heq => ?_) fun hboth => htrimmed (hboth.1 h)
      have hlength := congrArg List.length hcomponents
      rw [heq, List.length_append, List.length_singleton] at hlength
      omega
  · rw [path_gameDirectory_gameFile hpath h]
    exact ⟨fun heq => ⟨fun hname => absurd hname h, heq⟩, fun hboth => hboth.2⟩

/-! ### Both ways -/

/-- **The two ways are inverse** up to the writing of separators, unless a directory is called like a
container. -/
theorem there_and_back_iff (locator : Locator) :
    (locator.filename = ebootName →
      (locator.gameDirectory.gameFile.SamePlace locator ↔ ¬locator.IsNested) ∧
        (locator.gameDirectory.gameFile = locator ↔
          locator.gameDirectory.gameFile.SamePlace locator ∧ locator.IsWritten)) ∧
    (locator.path ≠ "" →
      (locator.gameFile.gameDirectory.SamePlace locator ↔
        (locator.filename = ebootName → locator.trimmed = ebootName)) ∧
        (locator.gameFile.gameDirectory = locator ↔
          locator.gameFile.gameDirectory.SamePlace locator ∧ locator.trimmed = locator.path)) := by
  constructor
  · exact fun h => ⟨samePlace_gameFile_gameDirectory h, gameFile_gameDirectory_eq_iff h⟩
  · exact fun hpath =>
      ⟨samePlace_gameDirectory_gameFile hpath, gameDirectory_gameFile_eq_iff hpath⟩

/-- A container and its directory on a memory stick lead to each other. -/
theorem there_and_back_memoryStick :
    let file : Locator := { scheme := .localFile, path := "ms0:/PSP/GAME/DEMO/EBOOT.PBP" }
    let directory : Locator := { scheme := .localFile, path := "ms0:/PSP/GAME/DEMO" }
    file.filename = ebootName ∧ file.gameDirectory.gameFile = file ∧
      directory.path ≠ "" ∧ directory.gameFile.gameDirectory = directory := by
  intro file directory
  have hname : file.filename = ebootName := by decide
  have hpath : directory.path ≠ "" := by decide
  have hthere := (there_and_back_iff file).1 hname
  have hback := (there_and_back_iff directory).2 hpath
  have hnested : ¬file.IsNested := by
    unfold IsNested
    decide +kernel
  have hwritten : file.IsWritten := by
    have hfile : file.path.toList = "ms0:/PSP/GAME/DEM".toList ++ 'O' :: '/' :: ebootName.toList := by
      decide
    right
    rw [hfile]
    exact .inside _ (by decide)
  refine ⟨hname, ?_, hpath, ?_⟩
  · exact hthere.2.mpr ⟨hthere.1.mpr hnested, hwritten⟩
  · exact hback.2.mpr ⟨hback.1.mpr (by decide), by decide⟩

/-- A `\` in front of a container is not restored, nor is a separator at the end of a directory, and
a directory that is called like a container is left. -/
theorem not_there_and_back :
    let file : Locator := { scheme := .localFile, path := "ms0:\\PSP\\GAME\\DEMO\\EBOOT.PBP" }
    let directory : Locator := { scheme := .localFile, path := "ms0:/PSP/GAME/DEMO/" }
    let nested : Locator := { scheme := .localFile, path := "games/EBOOT.PBP" }
    file.filename = ebootName ∧ file.gameDirectory.gameFile ≠ file ∧
      directory.path ≠ "" ∧ directory.gameFile.gameDirectory ≠ directory ∧
      nested.path ≠ "" ∧ nested.gameFile.gameDirectory ≠ nested := by
  decide

end Locator

end PspBoot
