import PspBoot.Proofs.Storage.Directory
import PspBoot.Source.LocalFile

/-!
# Paths that lead elsewhere

`tree.AltersOnly own tree'` says what operations on the files at some places have left alone.  Here
is what can be seen of them through the path of anything else, as long as only files were made there
(`FillsOnly`).  A path that is not the path of such a file, and leads to no content of one
(`LeadsPast`), leads to the same thing with the same bytes before and after, and it leads to nothing
after if it led to nothing before.

The second half is the one that needs an argument: a larger tree has more ways through it.  But a
way through the larger tree goes through directories up to its last name, and the files that were
added are no directories, so it is a way through the smaller tree as well, unless it ends at one of
them.
-/

namespace PspBoot.FileTree

variable {own : Place → Prop} {tree tree' : FileTree} {path name : String} {place next last : Place}

/-! ### Files at some places -/

/-- Nothing is different but the files at some places, where no directories are. -/
structure FillsOnly (own : Place → Prop) (tree tree' : FileTree) : Prop
    extends tree.AltersOnly own tree' where
  plain : ∀ place, own place → tree'.node? place ≠ some .directory

namespace FillsOnly

variable {tree'' : FileTree}

theorem refl (hplain : ∀ place, own place → tree.node? place ≠ some .directory) :
    tree.FillsOnly own tree where
  toAltersOnly := .refl tree
  plain := hplain

/-- Another content is put into a file at one of the places. -/
theorem set (h : tree.FillsOnly own tree') {id : FileId} (hplace : own place)
    (hnode : tree'.node? place = some (.file id)) (content : FileContent) :
    tree.FillsOnly own { tree' with contents := tree'.contents.set id content } where
  toAltersOnly := h.toAltersOnly.trans (.set hplace hnode content)
  plain other hother := by
    rw [node?_contents]
    exact h.plain other hother

/-- A file is opened at one of the places, and made if there is none. -/
theorem openFile (h : tree.FillsOnly own tree') {id : FileId}
    (hlocate : tree'.locate path = .ok place) (hplace : own place)
    (hopen : tree'.openFile path = .ok (id, tree'')) :
    tree.FillsOnly own tree'' ∧ tree''.node? place = some (.file id) := by
  obtain ⟨names, hnames, hcases⟩ := openFile_eq_ok hopen
  obtain rfl : place = .inside names := Except.ok.inj (hlocate.symm.trans hnames)
  have halters : tree.AltersOnly own tree'' := h.toAltersOnly.trans (.openFile hlocate hplace hopen)
  rcases hcases with ⟨hnode, rfl⟩ | ⟨hfree, rfl, rfl⟩
  · exact ⟨⟨halters, h.plain⟩, hnode⟩
  · refine ⟨⟨halters, fun other hother => ?_⟩, node?_addFile hfree {}⟩
    by_cases hsame : other = .inside names
    · subst hsame
      rw [node?_addFile hfree]
      exact nofun
    · rw [node?_addFile_of_ne hfree {} hsame]
      exact h.plain other hother

/-- A file is written anew at one of the places. -/
theorem writeFile (h : tree.FillsOnly own tree') {data : Bytes}
    (hlocate : tree'.locate path = .ok place) (hplace : own place)
    (hwrite : tree'.writeFile path data = .ok tree'') : tree.FillsOnly own tree'' := by
  obtain ⟨id, opened, hopen, rfl⟩ := writeFile_eq_ok hwrite
  obtain ⟨hopened, hnode⟩ := h.openFile hlocate hplace hopen
  exact hopened.set hplace hnode _

end FillsOnly

/-! ### Ways through directories -/

/-- All places above a place are directories. -/
inductive Rooted (tree : FileTree) : Place → Prop
  | outside : Rooted tree .outside
  | top {names : List String} (h : Place.isTop names = true) : Rooted tree (.inside names)
  | child {name : String} {names : List String} (hup : Rooted tree (.inside names))
      (h : tree.node? (.inside names) = some .directory) : Rooted tree (.inside (name :: names))

namespace Rooted

theorem root (tree : FileTree) : tree.Rooted .root := .top rfl

/-- The way up leads from the working directory outside, from the root to the root itself, and from
any other place to a directory. -/
theorem up (h : tree.Rooted place) :
    tree.Rooted place.up ∧ tree.node? place.up = some .directory := by
  cases h with
  | outside => exact ⟨.outside, rfl⟩
  | @top names h =>
    cases names with
    | nil => exact ⟨.outside, rfl⟩
    | cons name names =>
      rw [Place.up, if_pos h]
      exact ⟨root tree, rfl⟩
  | child hup h =>
    rw [Place.up]
    split
    · exact ⟨root tree, rfl⟩
    · exact ⟨hup, h⟩

theorem step (h : tree.Rooted place) (hstep : tree.step place name = .ok next) :
    tree.Rooted next := by
  rcases (step_eq_ok hstep).2 with ⟨-, rfl⟩ | ⟨-, rfl⟩ | ⟨-, -, hslot⟩
  · exact h
  · exact h.up.1
  · obtain ⟨home, rfl, hnode, -, rfl⟩ := slot_eq_ok.mp hslot
    exact .child h hnode

theorem follow (h : tree.Rooted place) {names : List String}
    (hfollow : names.foldlM tree.step place = .ok last) : tree.Rooted last := by
  induction names generalizing place with
  | nil =>
    cases hfollow
    exact h
  | cons name names ih =>
    rw [List.foldlM_cons, bind_eq_ok_iff] at hfollow
    obtain ⟨next, hstep, hrest⟩ := hfollow
    exact ih (h.step hstep) hrest

theorem origin (tree : FileTree) (path : String) : tree.Rooted (origin path) := by
  unfold FileTree.origin
  split
  · exact root tree
  · exact .top rfl

end Rooted

namespace AltersOnly

/-- A slot in a directory that is none of the places. -/
theorem slot_eq (h : tree.AltersOnly own tree') (hplace : ¬own place) (name : String) :
    tree'.slot place name = tree.slot place name := by
  unfold slot
  rw [h.node?_eq place hplace]

theorem step_eq (h : tree.AltersOnly own tree') (hplace : ¬own place) (hnext : ¬own next)
    (hstep : tree'.step place name = .ok next) : tree.step place name = .ok next := by
  unfold step at hstep ⊢
  rw [h.node?_eq place hplace, h.slot_eq hplace] at hstep
  by_cases hstays : FilePath.isHere name ∨ name = ".."
  · rw [if_pos hstays] at hstep ⊢
    exact hstep
  · rw [if_neg hstays] at hstep ⊢
    cases hslot : tree.slot place name with
    | error error =>
      rw [hslot] at hstep
      cases hstep
    | ok found =>
      rw [hslot] at hstep
      dsimp only at hstep ⊢
      by_cases hsome : (tree'.node? found).isSome
      · rw [if_pos hsome] at hstep
        cases hstep
        rw [h.node?_eq next hnext] at hsome
        rw [if_pos hsome]
      · rw [if_neg hsome] at hstep
        cases hstep

end AltersOnly

namespace FillsOnly

/-- Names that lead past the places in the larger tree lead to the same place in the smaller one. -/
theorem follow_eq (h : tree.FillsOnly own tree') {names : List String} (hlast : ¬own last)
    (hfollow : names.foldlM tree'.step place = .ok last) :
    names.foldlM tree.step place = .ok last := by
  induction names generalizing place with
  | nil => exact hfollow
  | cons name names ih =>
    rw [List.foldlM_cons, bind_eq_ok_iff] at hfollow ⊢
    obtain ⟨next, hstep, hrest⟩ := hfollow
    have hplace : ¬own place := fun hown => h.plain place hown (step_eq_ok hstep).1
    have hnext : ¬own next := by
      cases names with
      | nil =>
        cases hrest
        exact hlast
      | cons name names =>
        rw [List.foldlM_cons, bind_eq_ok_iff] at hrest
        obtain ⟨_, hlater, -⟩ := hrest
        exact fun hown => h.plain next hown (step_eq_ok hlater).1
    exact ⟨next, h.step_eq hplace hnext hstep, ih hrest⟩

/-- The place of a file is the same in both trees, whether it is one of the places or not. -/
theorem locate_eq (h : tree.FillsOnly own tree') (hlocate : tree'.locate path = .ok place) :
    tree.locate path = .ok place := by
  obtain ⟨hfault, directory, hfollow, hname, hslot⟩ := locate_eq_ok.mp hlocate
  have hdirectory : ¬own directory := by
    obtain ⟨home, -, hnode, -, -⟩ := slot_eq_ok.mp hslot
    exact fun hown => h.plain directory hown hnode
  rw [h.slot_eq hdirectory] at hslot
  exact locate_eq_ok.mpr ⟨hfault, directory, h.follow_eq hdirectory hfollow, hname, hslot⟩

/-- A path that is the path of none of the files does not lead to any of them. -/
theorem not_own_of_resolve (h : tree.FillsOnly own tree')
    (helse : ∀ place, tree.locate path = .ok place → ¬own place)
    (hresolve : tree'.resolve path = .ok place) : ¬own place := by
  obtain ⟨hfault, hfollow⟩ := resolve_eq_ok.mp hresolve
  rw [names_eq_append path, List.foldlM_append, bind_eq_ok_iff] at hfollow
  obtain ⟨directory, hinit, hlast⟩ := hfollow
  rw [List.foldlM_cons, bind_eq_ok_iff] at hlast
  obtain ⟨found, hstep, hfound⟩ := hlast
  cases hfound
  obtain ⟨hnode, hcases⟩ := step_eq_ok hstep
  intro hown
  rcases hcases with ⟨-, rfl⟩ | ⟨-, rfl⟩ | ⟨hhere, hup, hslot⟩
  · exact h.plain _ hown hnode
  · -- What lies above a place that is reached is a directory, and so none of the files.
    have hrooted : tree'.Rooted directory := (Rooted.origin tree' path).follow hinit
    exact h.plain _ hown hrooted.up.2
  · have hlocate : tree'.locate path = .ok place := by
      refine locate_eq_ok.mpr ⟨hfault, directory, hinit, ?_, hslot⟩
      rw [hhere]
      simp [hup]
    exact helse place (h.locate_eq hlocate) hown

/-- Such a path leads to the same thing in both trees, or to nothing in either. -/
theorem stat_eq_ok_iff (h : tree.FillsOnly own tree')
    (helse : ∀ place, tree.locate path = .ok place → ¬own place) {node : FileNode} :
    tree'.stat path = .ok node ↔ tree.stat path = .ok node := by
  refine ⟨fun hstat => ?_, h.grows.stat⟩
  obtain ⟨place, hresolve, hnode⟩ := FileTree.stat_eq_ok.mp hstat
  have hplace := h.not_own_of_resolve helse hresolve
  obtain ⟨hfault, hfollow⟩ := resolve_eq_ok.mp hresolve
  rw [h.node?_eq place hplace] at hnode
  exact FileTree.stat_eq_ok.mpr
    ⟨place, resolve_eq_ok.mpr ⟨hfault, h.follow_eq hplace hfollow⟩, hnode⟩

end FillsOnly

/-! ### What is found through a path -/

/-- The path is not the path of a file at one of the places, and leads to no content of one. -/
structure LeadsPast (own : Place → Prop) (tree : FileTree) (path : String) : Prop where
  place : ∀ place, tree.locate path = .ok place → ¬own place
  content : ∀ id, tree.stat path = .ok (.file id) →
    id < tree.contents.length ∧ ∀ place, own place → tree.node? place ≠ some (.file id)

/-- A path that leads nowhere leads past everything. -/
theorem LeadsPast.of_error {error error' : FileError} (hlocate : tree.locate path = .error error)
    (hstat : tree.stat path = .error error') : LeadsPast own tree path where
  place _ hplace := by cases hlocate.symm.trans hplace
  content _ hfile := by cases hstat.symm.trans hfile

/-- Through the path the same is found in two trees: the same thing, with the same bytes if it is a
file, or nothing. -/
structure SameAt (tree tree' : FileTree) (path : String) : Prop where
  stat_eq_ok_iff : ∀ node, tree'.stat path = .ok node ↔ tree.stat path = .ok node
  content_eq : ∀ id, tree.stat path = .ok (.file id) → tree'.content id = tree.content id

namespace SameAt

theorem refl (tree : FileTree) (path : String) : tree.SameAt tree path where
  stat_eq_ok_iff _ := .rfl
  content_eq _ _ := rfl

theorem trans {tree'' : FileTree} (h : tree.SameAt tree' path) (h' : tree'.SameAt tree'' path) :
    tree.SameAt tree'' path where
  stat_eq_ok_iff node := (h'.stat_eq_ok_iff node).trans (h.stat_eq_ok_iff node)
  content_eq id hstat :=
    (h'.content_eq id ((h.stat_eq_ok_iff _).mpr hstat)).trans (h.content_eq id hstat)

theorem pathExists_eq (h : tree.SameAt tree' path) : tree'.pathExists path = tree.pathExists path := by
  unfold pathExists
  cases hstat : tree.stat path with
  | ok node => rw [(h.stat_eq_ok_iff node).mpr hstat]
  | error error =>
    cases hstat' : tree'.stat path with
    | error error' => rfl
    | ok node => cases hstat.symm.trans ((h.stat_eq_ok_iff node).mp hstat')

/-- Whoever opens the path finds the same. -/
theorem look_eq (h : tree.SameAt tree' path) : LocalFile.look tree' path = .look tree path := by
  unfold LocalFile.look
  cases hstat : tree.stat path with
  | ok node =>
    rw [(h.stat_eq_ok_iff node).mpr hstat]
    cases node with
    | file id =>
      dsimp only
      rw [h.content_eq id hstat]
    | directory | socket => rfl
  | error error =>
    cases hstat' : tree'.stat path with
    | error error' => rfl
    | ok node => cases hstat.symm.trans ((h.stat_eq_ok_iff node).mp hstat')

/-- Whoever has opened the path reads the same. -/
theorem readAt_look_eq (h : tree.SameAt tree' path) (offset len : Nat) :
    (LocalFile.look tree path).readAt tree' offset len =
      (LocalFile.look tree path).readAt tree offset len := by
  unfold LocalFile.look
  cases hstat : tree.stat path with
  | error error => rfl
  | ok node =>
    cases node with
    | directory | socket => rfl
    | file id =>
      dsimp only [LocalFile.readAt]
      rw [h.content_eq id hstat]

end SameAt

/-- **What is done at some places cannot be seen through a path that leads past them.** -/
theorem LeadsPast.sameAt (h : LeadsPast own tree path) (hfills : tree.FillsOnly own tree') :
    tree.SameAt tree' path where
  stat_eq_ok_iff _ := hfills.stat_eq_ok_iff h.place
  content_eq id hstat := by
    obtain ⟨hid, hother⟩ := h.content id hstat
    exact hfills.content_eq id hid hother

/-- That directories are made cannot be seen through a path that does not lead to one of them. -/
theorem sameAt_makeDirectories {directory : String}
    (h : (tree.makeDirectories directory).pathExists path = tree.pathExists path) :
    tree.SameAt (tree.makeDirectories directory) path where
  stat_eq_ok_iff node := by
    have hgrows := tree.grows_makeDirectories directory
    refine ⟨fun hstat => ?_, hgrows.stat⟩
    have hthere : tree.pathExists path = true := by
      rw [← h, pathExists, hstat]
      rfl
    obtain ⟨found, hfound⟩ : ∃ found, tree.stat path = .ok found := by
      cases hold : tree.stat path with
      | ok found => exact ⟨found, rfl⟩
      | error error =>
        rw [pathExists, hold] at hthere
        cases hthere
    rw [hfound, ← hgrows.stat hfound, hstat]
  content_eq id _ := by rw [content, content, contents_makeDirectories]

end PspBoot.FileTree
