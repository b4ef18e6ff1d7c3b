import PspBoot.Proofs.Storage.FileContent
import PspBoot.Storage.FileTree

/-!
# Trees that grow

Making files and directories adds to a tree and takes nothing away: `tree.Grows tree'` says that
whatever stands in `tree` stands in `tree'`.  A path that can be followed in a tree leads to the
same place in every tree grown from it.

A file that is opened by its path is the file that stands where the path leads to
(`openFile_of_locate`); this is also how its content is looked up (`node?_of_bytesOf`).
-/

namespace PspBoot

/-- Two steps that may fail come out well if both do. -/
theorem bind_eq_ok_iff {ε α β : Type} {first : Except ε α} {next : α → Except ε β} {b : β} :
    first >>= next = .ok b ↔ ∃ a, first = .ok a ∧ next a = .ok b := by
  cases first with
  | error error => simp [bind, Except.bind]
  | ok a => simp [bind, Except.bind]

namespace FilePath

theorem splitAt_ne_nil (mark : Char) (cs : List Char) : Text.splitAt mark cs ≠ [] := by
  cases cs with
  | nil => simp [Text.splitAt]
  | cons c cs =>
    rw [Text.splitAt]
    split
    · simp
    · split
      · simp
      · simp

/-- What is added behind a text without another mark goes to its last piece. -/
theorem splitAt_append (mark : Char) (cs : List Char) {ending : List Char} (h : mark ∉ ending) :
    Text.splitAt mark (cs ++ ending) =
      (Text.splitAt mark cs).dropLast ++ [(Text.splitAt mark cs).getLast?.getD [] ++ ending] := by
  induction cs with
  | nil =>
    induction ending with
    | nil => rfl
    | cons c ending ih =>
      have hc : c ≠ mark := fun heq => h (heq ▸ List.mem_cons_self)
      have hrest := ih fun hmem => h (List.mem_cons_of_mem c hmem)
      simp only [List.nil_append, Text.splitAt, List.dropLast_singleton, List.getLast?_singleton,
        Option.getD_some] at hrest ⊢
      rw [if_neg hc, hrest]
  | cons c cs ih =>
    have hne := splitAt_ne_nil mark cs
    rw [List.cons_append, Text.splitAt, Text.splitAt]
    split
    · rw [ih, List.dropLast_cons_of_ne_nil hne, List.getLast?_cons_of_ne_nil hne]
      rfl
    · rw [ih]
      cases hpieces : Text.splitAt mark cs with
      | nil => exact absurd hpieces hne
      | cons piece pieces =>
        cases pieces with
        | nil => rfl
        | cons next pieces => simp

/-- The last name of a path, and those in front of it. -/
theorem names_append (stem : String) {ending : String} (h : '/' ∉ ending.toList) :
    names (stem ++ ending) =
      (names stem).dropLast ++ [(names stem).getLast?.getD "" ++ ending] := by
  rw [names, names, String.toList_append, splitAt_append '/' _ h, List.map_append,
    ← List.map_dropLast]
  congr 1
  cases hlast : (Text.splitAt '/' stem.toList).getLast? with
  | none => exact absurd (List.getLast?_eq_none_iff.mp hlast) (splitAt_ne_nil _ _)
  | some piece =>
    simp [List.getLast?_map, hlast]

end FilePath

namespace FileTree

variable {tree tree' : FileTree} {path : String} {place : Place}

/-! ### Growth -/

/-- Whatever stands in the first tree stands in the second. -/
def Grows (tree tree' : FileTree) : Prop :=
  ∀ place node, tree.node? place = some node → tree'.node? place = some node

namespace Grows

theorem refl (tree : FileTree) : tree.Grows tree :=
  fun _ _ h => h

theorem trans {tree'' : FileTree} (h : tree.Grows tree') (h' : tree'.Grows tree'') :
    tree.Grows tree'' :=
  fun place node hnode => h' place node (h place node hnode)

theorem slot (h : tree.Grows tree') {directory : Place} {name : String}
    (hslot : tree.slot directory name = .ok place) : tree'.slot directory name = .ok place := by
  unfold FileTree.slot at hslot ⊢
  split at hslot
  · next hnode =>
    rw [h _ _ hnode]
    exact hslot
  · cases hslot
  · cases hslot

theorem step (h : tree.Grows tree') {origin : Place} {name : String}
    (hstep : tree.step origin name = .ok place) : tree'.step origin name = .ok place := by
  unfold FileTree.step at hstep ⊢
  split
  · next hhere =>
    rw [if_pos hhere] at hstep
    split at hstep
    · next hnode =>
      rw [h _ _ hnode]
      exact hstep
    · cases hstep
  · next hhere =>
    rw [if_neg hhere] at hstep
    cases hslot : tree.slot origin name with
    | error error =>
      simp [hslot] at hstep
    | ok found =>
      rw [hslot] at hstep
      rw [h.slot hslot]
      dsimp only at hstep ⊢
      obtain ⟨node, hnode⟩ : ∃ node, tree.node? found = some node := by
        apply Option.isSome_iff_exists.mp
        by_cases hsome : (tree.node? found).isSome
        · exact hsome
        · simp [if_neg hsome] at hstep
      rw [hnode] at hstep
      rw [h _ _ hnode]
      exact hstep

/-- Names that can be followed lead to the same place. -/
theorem follow (h : tree.Grows tree') {origin : Place} (names : List String)
    (hfollow : names.foldlM tree.step origin = .ok place) :
    names.foldlM tree'.step origin = .ok place := by
  induction names generalizing origin with
  | nil => exact hfollow
  | cons name names ih =>
    rw [List.foldlM_cons] at hfollow ⊢
    cases hstep : tree.step origin name with
    | error error =>
      rw [hstep] at hfollow
      cases hfollow
    | ok next =>
      rw [hstep] at hfollow
      rw [h.step hstep]
      exact ih hfollow

end Grows

/-! ### Places of files -/

/-- The last name of a path. -/
def ownName (path : String) : String :=
  (FilePath.names path).getLast?.getD ""

/-- The place of a file is the slot of its own name in the directory that the other names lead
to. -/
theorem locate_eq_ok :
    tree.locate path = .ok place ↔
      pathFault? path = none ∧ ∃ directory,
        (FilePath.names path).dropLast.foldlM tree.step (origin path) = .ok directory ∧
          ¬(FilePath.isHere (ownName path) ∨ ownName path = "..") ∧
            tree.slot directory (ownName path) = .ok place := by
  unfold locate ownName
  cases pathFault? path with
  | some error => simp
  | none =>
    simp only [bind_eq_ok_iff, true_and]
    apply exists_congr
    intro directory
    apply and_congr_right
    intro _
    by_cases hhere : FilePath.isHere ((FilePath.names path).getLast?.getD "") ∨
        (FilePath.names path).getLast?.getD "" = ".."
    · simp [hhere, bind_eq_ok_iff]
    · simp [hhere]

theorem Grows.locate (h : tree.Grows tree') (hlocate : tree.locate path = .ok place) :
    tree'.locate path = .ok place := by
  obtain ⟨hfault, directory, hfollow, hname, hslot⟩ := locate_eq_ok.mp hlocate
  exact locate_eq_ok.mpr ⟨hfault, directory, h.follow _ hfollow, hname, h.slot hslot⟩

/-- A slot is a place inside the tree, below the directory that it belongs to. -/
theorem slot_eq_ok {directory : Place} {name : String} :
    tree.slot directory name = .ok place ↔
      ∃ home, directory = .inside home ∧ tree.node? directory = some .directory ∧
        name.utf8ByteSize ≤ maxNameSize ∧ place = .inside (name :: home) := by
  unfold slot
  constructor
  · intro h
    split at h
    · next home hnode =>
      split at h
      · cases h
      · next hsize =>
        cases h
        exact ⟨home, rfl, hnode, Nat.le_of_not_lt hsize, rfl⟩
    · cases h
    · cases h
  · rintro ⟨home, rfl, hnode, hsize, rfl⟩
    rw [hnode]
    exact if_neg (Nat.not_lt.mpr hsize)

/-- The names of a path that is one of a file, with the name of the file apart. -/
theorem names_eq_append (path : String) :
    FilePath.names path = (FilePath.names path).dropLast ++ [ownName path] := by
  have hne : FilePath.names path ≠ [] := by
    simp [FilePath.names, FilePath.splitAt_ne_nil]
  rw [ownName, List.getLast?_eq_some_getLast hne, Option.getD_some]
  exact (List.dropLast_concat_getLast hne).symm

/-- Where a path leads to, if the path is that of a file. -/
theorem resolve_of_locate (h : tree.locate path = .ok place) :
    tree.resolve path =
      if (tree.node? place).isSome then .ok place else .error .notFound := by
  obtain ⟨hfault, directory, hfollow, hname, hslot⟩ := locate_eq_ok.mp h
  have hresolve : tree.resolve path = tree.step directory (ownName path) := by
    unfold resolve
    rw [hfault, names_eq_append path]
    dsimp only
    rw [List.foldlM_append, hfollow]
    change (tree.step directory _ >>= fun a => pure a) = _
    rw [bind_pure]
  rw [hresolve, step, if_neg hname, hslot]

/-- What stands where a path leads to, if the path is that of a file. -/
theorem stat_of_locate (h : tree.locate path = .ok place) :
    tree.stat path =
      match tree.node? place with
      | some node => .ok node
      | none => .error .notFound := by
  rw [stat, resolve_of_locate h]
  cases hnode : tree.node? place with
  | none => rfl
  | some node =>
    change (match tree.node? place with | some node => _ | none => _) = _
    rw [hnode]

/-- A path of a file leads to something if something stands at its place. -/
theorem pathExists_of_locate (h : tree.locate path = .ok place) :
    tree.pathExists path = (tree.node? place).isSome := by
  rw [pathExists, stat_of_locate h]
  cases tree.node? place with
  | none => rfl
  | some node => rfl

/-- A file is made by its path where nothing stands. -/
theorem openFile_of_free {names : List String} (h : tree.locate path = .ok (.inside names))
    (hfree : tree.node? (.inside names) = none) :
    tree.openFile path = .ok (tree.contents.length, tree.addFile names {}) := by
  simp [openFile, h, hfree, bind, Except.bind]

/-- The file at a place is opened by its path. -/
theorem openFile_of_locate {id : FileId} (h : tree.locate path = .ok place)
    (hnode : tree.node? place = some (.file id)) : tree.openFile path = .ok (id, tree) := by
  simp [openFile, h, hnode, bind, Except.bind]

/-- Bytes can only be those of a file. -/
theorem node?_of_bytesOf {data : Bytes} (h : tree.locate path = .ok place)
    (hbytes : tree.bytesOf path = .ok data) :
    ∃ id, tree.node? place = some (.file id) ∧ data = (tree.content id).toBytes := by
  obtain ⟨node, hstat, hdata⟩ := bind_eq_ok_iff.mp hbytes
  rw [stat_of_locate h] at hstat
  cases hnode : tree.node? place with
  | none => simp [hnode] at hstat
  | some found =>
    simp only [hnode, Except.ok.injEq] at hstat
    subst hstat
    cases found with
    | file id => exact ⟨id, rfl, (Except.ok.inj hdata).symm⟩
    | directory => cases hdata
    | socket => cases hdata

theorem stat_eq_file {id : FileId} (h : tree.locate path = .ok place)
    (hnode : tree.node? place = some (.file id)) : tree.stat path = .ok (.file id) := by
  rw [stat_of_locate h, hnode]

/-- The bytes of the file at a place. -/
theorem bytesOf_of_locate {id : FileId} (h : tree.locate path = .ok place)
    (hnode : tree.node? place = some (.file id)) :
    tree.bytesOf path = .ok (tree.content id).toBytes :=
  bind_eq_ok_iff.mpr ⟨_, stat_eq_file h hnode, rfl⟩

/-- The content of the file that a path leads to, if it leads to a file. -/
def file? (tree : FileTree) (path : String) : Option FileContent :=
  match tree.stat path with
  | .ok (.file id) => some (tree.content id)
  | _ => none

theorem file?_of_locate {id : FileId} (h : tree.locate path = .ok place)
    (hnode : tree.node? place = some (.file id)) : tree.file? path = some (tree.content id) := by
  rw [file?, stat_eq_file h hnode]

/-- There are no bytes where there is nothing. -/
theorem bytesOf_of_absent (h : tree.pathExists path = false) :
    ∃ error, tree.bytesOf path = .error error := by
  unfold pathExists at h
  unfold bytesOf
  cases hstat : tree.stat path with
  | error error => exact ⟨error, rfl⟩
  | ok node =>
    rw [hstat] at h
    cases h

/-- What can be opened as a file has a place in the tree: either the file stands there already, or
nothing does and it is made. -/
theorem openFile_eq_ok {id : FileId} (h : tree.openFile path = .ok (id, tree')) :
    ∃ names, tree.locate path = .ok (.inside names) ∧
      ((tree.node? (.inside names) = some (.file id) ∧ tree' = tree) ∨
        (tree.node? (.inside names) = none ∧ id = tree.contents.length ∧
          tree' = tree.addFile names {})) := by
  obtain ⟨place, hlocate, h⟩ := bind_eq_ok_iff.mp h
  obtain ⟨-, directory, -, -, hslot⟩ := locate_eq_ok.mp hlocate
  obtain ⟨home, -, -, -, rfl⟩ := slot_eq_ok.mp hslot
  refine ⟨_, hlocate, ?_⟩
  cases hnode : tree.node? (.inside (ownName path :: home)) with
  | none =>
    rw [hnode] at h
    cases h
    exact .inr ⟨rfl, rfl, rfl⟩
  | some node =>
    rw [hnode] at h
    cases node with
    | file id =>
      cases h
      exact .inl ⟨rfl, rfl⟩
    | directory => cases h
    | socket => cases h

/-! ### Making files and directories -/

/-- The working directory and the root are directories, so they are not where nothing or something
else stands. -/
theorem isTop_of_node? {names : List String} (h : tree.node? (.inside names) ≠ some .directory) :
    Place.isTop names = false := by
  apply Bool.eq_false_iff.mpr
  intro htop
  exact h (if_pos htop)

theorem isTop_of_free {names : List String} (h : tree.node? (.inside names) = none) :
    Place.isTop names = false := by
  have hnode : tree.node? (.inside names) ≠ some .directory := by simp [h]
  exact isTop_of_node? hnode

theorem node?_inside {names : List String} (h : Place.isTop names = false) :
    tree.node? (.inside names) = tree.entries.lookup names :=
  if_neg (Bool.eq_false_iff.mp h)

/-- What stands in a tree with one entry more. -/
theorem node?_cons (tree : FileTree) {names : List String} (node : FileNode) (place : Place)
    (hnames : Place.isTop names = false) :
    ({ tree with entries := (names, node) :: tree.entries } : FileTree).node? place =
      if place = .inside names then some node else tree.node? place := by
  cases place with
  | outside => rfl
  | inside others =>
    by_cases hsame : others = names
    · subst hsame
      rw [if_pos rfl, node?_inside hnames, List.lookup_cons_self]
    · have hother : ¬Place.inside others = .inside names := fun heq => hsame (Place.inside.inj heq)
      have hkey : (others == names) = false := beq_eq_false_iff_ne.mpr hsame
      rw [if_neg hother, node?, node?, List.lookup_cons, hkey]

theorem grows_cons {names : List String} (hfree : tree.node? (.inside names) = none)
    (node : FileNode) :
    tree.Grows { tree with entries := (names, node) :: tree.entries } := by
  intro place found hfound
  rw [tree.node?_cons node place (isTop_of_free hfree), if_neg]
  · exact hfound
  · rintro rfl
    simp [hfree] at hfound

/-- A file made where nothing stood takes nothing away. -/
theorem grows_addFile {names : List String} (hfree : tree.node? (.inside names) = none)
    (content : FileContent) : tree.Grows (tree.addFile names content) :=
  grows_cons hfree _

theorem node?_addFile {names : List String} (hfree : tree.node? (.inside names) = none)
    (content : FileContent) :
    (tree.addFile names content).node? (.inside names) = some (.file tree.contents.length) := by
  have hnode :=
    tree.node?_cons (.file tree.contents.length) (.inside names) (isTop_of_free hfree)
  rw [if_pos rfl] at hnode
  exact hnode

theorem node?_addFile_of_ne {names : List String} (hfree : tree.node? (.inside names) = none)
    (content : FileContent) (hplace : place ≠ .inside names) :
    (tree.addFile names content).node? place = tree.node? place := by
  have hnode := tree.node?_cons (.file tree.contents.length) place (isTop_of_free hfree)
  rw [if_neg hplace] at hnode
  exact hnode

/-- All that going into a directory may come to: it leads up, into a directory that is there, or
into one that is made. -/
theorem enter_cases {origin next : Place} {name : String}
    (h : tree.enter origin name = .ok (tree', next)) :
    (name = ".." ∧ next = origin.up ∧ tree' = tree) ∨
      (name ≠ ".." ∧ tree.slot origin name = .ok next ∧
        ((tree.node? next = some .directory ∧ tree' = tree) ∨
          ∃ names, next = .inside names ∧ tree.node? next = none ∧
            tree' = { tree with entries := (names, .directory) :: tree.entries })) := by
  unfold enter at h
  split at h
  · next hup =>
    cases h
    exact .inl ⟨hup, rfl, rfl⟩
  · next hup =>
    obtain ⟨found, hslot, h⟩ := bind_eq_ok_iff.mp h
    obtain ⟨home, -, -, -, rfl⟩ := slot_eq_ok.mp hslot
    right
    cases hnode : tree.node? (.inside (name :: home)) with
    | none =>
      rw [hnode] at h
      cases h
      exact ⟨hup, hslot, .inr ⟨_, rfl, hnode, rfl⟩⟩
    | some node =>
      rw [hnode] at h
      cases node with
      | directory =>
        cases h
        exact ⟨hup, hslot, .inl ⟨hnode, rfl⟩⟩
      | file id => cases h
      | socket => cases h

/-- Going into a directory leads where the name says, and a directory stands there then. -/
theorem enter_eq_ok {name : String} {next : Place}
    (h : tree.enter place name = .ok (tree', next)) :
    tree.Grows tree' ∧ tree'.contents = tree.contents ∧
      ((name = ".." ∧ next = place.up) ∨
        (name ≠ ".." ∧ tree.slot place name = .ok next ∧
          tree'.node? next = some .directory)) := by
  rcases enter_cases h with ⟨hup, rfl, rfl⟩ | ⟨hup, hslot, hnext⟩
  · exact ⟨.refl _, rfl, .inl ⟨hup, rfl⟩⟩
  · rcases hnext with ⟨hnode, rfl⟩ | ⟨names, rfl, hnode, rfl⟩
    · exact ⟨.refl _, rfl, .inr ⟨hup, hslot, hnode⟩⟩
    · refine ⟨grows_cons hnode _, rfl, .inr ⟨hup, hslot, ?_⟩⟩
      rw [node?_cons _ _ _ (isTop_of_free hnode), if_pos rfl]

theorem file_of_enter {name : String} {origin next : Place} {id : FileId}
    (h : tree.enter origin name = .ok (tree', next))
    (hnode : tree'.node? place = some (.file id)) : tree.node? place = some (.file id) := by
  rcases enter_cases h with ⟨-, -, rfl⟩ | ⟨-, -, ⟨-, rfl⟩ | ⟨names, rfl, hfree, rfl⟩⟩
  · exact hnode
  · exact hnode
  · rw [node?_cons _ _ _ (isTop_of_free hfree)] at hnode
    split at hnode
    · cases hnode
    · exact hnode

theorem enterAll_grows (names : List String) (place : Place) (tree : FileTree) :
    tree.Grows (tree.enterAll place names) ∧
      (tree.enterAll place names).contents = tree.contents := by
  induction names generalizing place tree with
  | nil => exact ⟨.refl _, rfl⟩
  | cons name names ih =>
    unfold enterAll
    cases henter : tree.enter place name with
    | error error => exact ⟨.refl _, rfl⟩
    | ok result =>
      obtain ⟨tree', next⟩ := result
      obtain ⟨hgrows, hcontents, -⟩ := enter_eq_ok henter
      obtain ⟨hrest, hrestContents⟩ := ih next tree'
      exact ⟨hgrows.trans hrest, hrestContents.trans hcontents⟩

/-- Directories that have been made are not made again.  By induction on the names: every name that
could be entered can be entered in the tree that results. -/
theorem enterAll_enterAll (names : List String) (place : Place) (tree : FileTree) :
    (tree.enterAll place names).enterAll place names = tree.enterAll place names := by
  induction names generalizing place tree with
  | nil => rfl
  | cons name names ih =>
    cases henter : tree.enter place name with
    | error error =>
      have hstop : tree.enterAll place (name :: names) = tree := by
        rw [enterAll, henter]
      rw [hstop, hstop]
    | ok result =>
      obtain ⟨tree', next⟩ := result
      have hgo : tree.enterAll place (name :: names) = tree'.enterAll next names := by
        rw [enterAll, henter]
      obtain ⟨hgrows, -, hnext⟩ := enter_eq_ok henter
      have hrest := (enterAll_grows names next tree').1
      have hagain : (tree'.enterAll next names).enter place name =
          .ok (tree'.enterAll next names, next) := by
        unfold enter
        rcases hnext with ⟨hup, rfl⟩ | ⟨hup, hslot, hnode⟩
        · rw [if_pos hup]
        · rw [if_neg hup, (hgrows.trans hrest).slot hslot]
          dsimp only [bind, Except.bind]
          rw [hrest next _ hnode]
      rw [hgo, enterAll, hagain]
      exact ih next tree'

/-- Making directories takes nothing away. -/
theorem grows_makeDirectories (tree : FileTree) (path : String) :
    tree.Grows (tree.makeDirectories path) := by
  unfold makeDirectories
  split
  · exact .refl _
  · exact (enterAll_grows _ _ _).1

@[simp] theorem contents_makeDirectories (tree : FileTree) (path : String) :
    (tree.makeDirectories path).contents = tree.contents := by
  unfold makeDirectories
  split
  · rfl
  · exact (enterAll_grows _ _ _).2

theorem file_of_enterAll {id : FileId} (names : List String) (origin : Place) (tree : FileTree)
    (h : (tree.enterAll origin names).node? place = some (.file id)) :
    tree.node? place = some (.file id) := by
  induction names generalizing origin tree with
  | nil => exact h
  | cons name names ih =>
    unfold enterAll at h
    cases henter : tree.enter origin name with
    | error error =>
      rw [henter] at h
      exact h
    | ok result =>
      obtain ⟨tree', next⟩ := result
      rw [henter] at h
      exact file_of_enter henter (ih next tree' h)

/-- No file is made along with directories. -/
theorem file_of_makeDirectories {id : FileId}
    (h : (tree.makeDirectories path).node? place = some (.file id)) :
    tree.node? place = some (.file id) := by
  unfold makeDirectories at h
  split at h
  · exact h
  · exact file_of_enterAll _ _ _ h

/-- Directories are made once. -/
theorem makeDirectories_makeDirectories (tree : FileTree) (path : String) :
    (tree.makeDirectories path).makeDirectories path = tree.makeDirectories path := by
  unfold makeDirectories
  cases pathFault? path with
  | some error => rfl
  | none => exact enterAll_enterAll _ _ _

/-! ### Files side by side -/

/-- A text that makes a path of a file from any path when it is put behind it. -/
structure IsEnding (ending : String) : Prop where
  long : 3 ≤ ending.toList.length
  noSeparator : '/' ∉ ending.toList
  noNul : '\x00' ∉ ending.toList

namespace IsEnding

variable {ending other : String}

theorem ownName_append (h : IsEnding ending) (stem : String) :
    ownName (stem ++ ending) = ownName stem ++ ending := by
  rw [ownName, FilePath.names_append stem h.noSeparator, List.getLast?_concat]
  rfl

theorem ne_here (h : IsEnding ending) (name : String) :
    ¬(FilePath.isHere (name ++ ending) ∨ name ++ ending = "..") := by
  have hlength : 3 ≤ (name ++ ending).toList.length := by
    rw [String.toList_append, List.length_append]
    exact Nat.le_trans h.long (Nat.le_add_left _ _)
  have hne (short : String) (hshort : short.toList.length < 3) : name ++ ending ≠ short := by
    rintro rfl
    omega
  simp [FilePath.isHere, hne "" (by decide), hne "." (by decide), hne ".." (by decide)]

theorem origin_append (h : IsEnding ending) (h' : IsEnding other) (stem : String) :
    origin (stem ++ ending) = origin (stem ++ other) := by
  have hrelative {ending : String} (h : IsEnding ending) : ending.toList.head? ≠ some '/' :=
    fun hhead => h.noSeparator (List.mem_of_mem_head? hhead)
  cases hhead : stem.toList.head? <;>
    simp [origin, FilePath.isAbsolute, List.head?_append, hhead, hrelative h, hrelative h']

theorem pathFault?_append (h' : IsEnding other) {stem : String}
    (hsize : other.utf8ByteSize ≤ ending.utf8ByteSize)
    (hfault : pathFault? (stem ++ ending) = none) : pathFault? (stem ++ other) = none := by
  unfold pathFault? at hfault ⊢
  split at hfault
  · cases hfault
  · next hnul =>
    split at hfault
    · cases hfault
    · split at hfault
      · cases hfault
      · next hlong =>
        rw [String.utf8ByteSize_append] at hlong
        rw [if_neg, if_neg, if_neg]
        · rw [String.utf8ByteSize_append]
          omega
        · rw [String.toList_append]
          intro hempty
          have := h'.long
          simp [(List.append_eq_nil_iff.mp hempty).2] at this
        · intro hcontains
          apply hnul
          rw [List.contains_iff_mem, String.toList_append] at hcontains ⊢
          rcases List.mem_append.mp hcontains with hmem | hmem
          · exact List.mem_append_left _ hmem
          · exact absurd hmem h'.noNul

/-- Beside a file with one ending there is a slot for one with another ending that is not longer,
under the same directory. -/
theorem locate_append (h : IsEnding ending) (h' : IsEnding other) {stem : String}
    (hsize : other.utf8ByteSize ≤ ending.utf8ByteSize)
    (hlocate : tree.locate (stem ++ ending) = .ok place) :
    ∃ home, place = .inside ((ownName stem ++ ending) :: home) ∧
      tree.locate (stem ++ other) = .ok (.inside ((ownName stem ++ other) :: home)) := by
  obtain ⟨hfault, directory, hfollow, -, hslot⟩ := locate_eq_ok.mp hlocate
  rw [h.ownName_append] at hslot
  obtain ⟨home, rfl, hnode, hname, rfl⟩ := slot_eq_ok.mp hslot
  refine ⟨home, rfl, locate_eq_ok.mpr ⟨h'.pathFault?_append hsize hfault, .inside home, ?_, ?_, ?_⟩⟩
  · rw [FilePath.names_append stem h.noSeparator, List.dropLast_concat] at hfollow
    rw [FilePath.names_append stem h'.noSeparator, List.dropLast_concat, ← h.origin_append h']
    exact hfollow
  · rw [h'.ownName_append]
    apply h'.ne_here
  · rw [h'.ownName_append]
    refine slot_eq_ok.mpr ⟨home, rfl, hnode, ?_, rfl⟩
    rw [String.utf8ByteSize_append] at hname ⊢
    omega

end IsEnding

/-! ### Contents -/

/-- The tree with the content of a file replaced. -/
theorem content_set_self {id : FileId} (content : FileContent) (h : id < tree.contents.length) :
    ({ tree with contents := tree.contents.set id content } : FileTree).content id = content := by
  simp [FileTree.content, h]

theorem content_set_of_ne {id other : FileId} (content : FileContent) (h : id ≠ other) :
    ({ tree with contents := tree.contents.set id content } : FileTree).content other =
      tree.content other := by
  simp [FileTree.content, List.getElem?_set_ne h]

theorem content_addFile {id : FileId} (names : List String) (content : FileContent)
    (h : id < tree.contents.length) :
    (tree.addFile names content).content id = tree.content id := by
  simp [FileTree.content, addFile, List.getElem?_append_left h]

/-- What stands at a place does not depend on the contents of files. -/
@[simp] theorem node?_contents (tree : FileTree) (contents : List FileContent) (place : Place) :
    ({ tree with contents } : FileTree).node? place = tree.node? place := by
  cases place with
  | outside | inside => rfl

/-- To replace a content moves no file. -/
theorem grows_contents (tree : FileTree) (contents : List FileContent) :
    tree.Grows { tree with contents } := by
  intro place node h
  rw [node?_contents]
  exact h

theorem writeAt_eq_ok {id : FileId} {offset : Nat} {data : Bytes}
    (h : tree.writeAt id offset data = .ok tree') :
    tree' =
      { tree with contents := tree.contents.set id ((tree.content id).write offset data) } := by
  unfold writeAt at h
  split at h
  · cases h
  · exact (Except.ok.inj h).symm

/-- A file that can be written anew can be opened. -/
theorem writeFile_eq_ok {data : Bytes} (h : tree.writeFile path data = .ok tree') :
    ∃ id opened, tree.openFile path = .ok (id, opened) ∧
      tree' = { opened with contents := opened.contents.set id (.ofBytes data) } := by
  obtain ⟨⟨id, opened⟩, hopen, h⟩ := bind_eq_ok_iff.mp h
  exact ⟨id, opened, hopen, (Except.ok.inj h).symm⟩

/-- What is written to a file is read back from it. -/
theorem readAt_writeAt_self {id : FileId} {offset : Nat} {data : Bytes}
    (hid : id < tree.contents.length) (h : tree.writeAt id offset data = .ok tree') :
    tree'.readAt id offset data.length = .ok data := by
  unfold writeAt at h
  split at h
  · cases h
  · next hsize =>
    cases h
    rw [readAt, if_neg hsize, content_set_self _ hid, FileContent.read_write_self]

/-- Ranges that were there in full are read as before, unless they meet what is written. -/
theorem readAt_writeAt_disjoint {id : FileId} {start offset len : Nat} {data block : Bytes}
    (hid : id < tree.contents.length) (h : tree.writeAt id start data = .ok tree')
    (hread : tree.readAt id offset len = .ok block) (hfull : block.length = len)
    (hdisjoint : offset + len ≤ start ∨ start + data.length ≤ offset) :
    tree'.readAt id offset len = .ok block := by
  unfold writeAt at h
  split at h
  · cases h
  · cases h
    unfold readAt at hread ⊢
    split at hread
    · cases hread
    · next hsize =>
      rw [if_neg hsize, content_set_self _ hid]
      obtain rfl := Except.ok.inj hread
      rw [FileContent.length_read] at hfull
      by_cases hzero : len = 0
      · subst hzero
        rw [FileContent.read_zero, FileContent.read_zero]
      · rw [FileContent.read_write_disjoint (by omega) hdisjoint]

/-- So are ranges of which the beginning is written that they have already. -/
theorem readAt_writeAt_prefix {id : FileId} {offset len : Nat} {block part : Bytes}
    (hid : id < tree.contents.length) (h : tree.writeAt id offset part = .ok tree')
    (hread : tree.readAt id offset len = .ok block) (hfull : block.length = len)
    (hpart : part <+: block) : tree'.readAt id offset len = .ok block := by
  obtain rfl := writeAt_eq_ok h
  unfold readAt at hread ⊢
  split at hread
  · cases hread
  · next hsize =>
    rw [if_neg hsize, content_set_self _ hid,
      FileContent.read_write_prefix (Except.ok.inj hread) hfull hpart]

/-- To write nothing changes nothing. -/
theorem writeAt_nil {id : FileId} {offset : Nat} (hid : id < tree.contents.length)
    (h : tree.writeAt id offset [] = .ok tree') : tree' = tree := by
  obtain rfl := writeAt_eq_ok h
  have hsame : (tree.content id).write offset [] = tree.contents[id] := by
    rw [FileContent.write, if_pos rfl, FileTree.content, List.getD_eq_getElem?_getD,
      List.getElem?_eq_getElem hid, Option.getD_some]
  rw [hsame, List.set_getElem_self]

/-! ### Failing writes -/

/-- Nothing is left half written. -/
def WriteFate.IsAtomic : WriteFate → Prop
  | .whole | .refused _ => True
  | .cut _ taken => taken = 0

/-- What a write comes to: it is done and reported so, it is not done at all, or a part of it is
done although it is reported to have failed. -/
theorem writeAs_cases (tree : FileTree) (write : Bytes → Except FileError FileTree) (data : Bytes)
    (fate : WriteFate) :
    (∃ tree', fate = .whole ∧ write data = .ok tree' ∧
        tree.writeAs write data fate = (.ok (), tree')) ∨
      (∃ error, ((∃ error', fate = .refused error') ∨ ∃ n error', write (data.take n) = .error error') ∧
        tree.writeAs write data fate = (.error error, tree)) ∨
      ∃ error n tree', fate = .cut error n ∧ write (data.take n) = .ok tree' ∧
        tree.writeAs write data fate = (.error error, tree') := by
  cases fate with
  | whole =>
    rw [writeAs]
    cases hwrite : write data with
    | ok tree' => exact .inl ⟨tree', rfl, rfl, rfl⟩
    | error error =>
      refine .inr (.inl ⟨error, .inr ⟨data.length, error, ?_⟩, rfl⟩)
      rw [List.take_length, hwrite]
  | refused error => exact .inr (.inl ⟨error, .inl ⟨error, rfl⟩, rfl⟩)
  | cut error n =>
    rw [writeAs]
    cases hwrite : write (data.take n) with
    | ok tree' => exact .inr (.inr ⟨error, n, tree', rfl, hwrite, rfl⟩)
    | error error' => exact .inr (.inl ⟨error, .inr ⟨n, error', hwrite⟩, rfl⟩)

end FileTree

end PspBoot
