import PspBoot.Proofs.Storage.FileTree

/-!
# Directories that are in use

A directory in which files can be made need not be made itself (`makeDirectories_of_usable`), and it
stays one whatever is added to the tree.  So does the place of a file in it, and even the loss of
one file leaves the way to the others open (`locate_without`).

`tree.AltersOnly own tree'` says that an operation was about the files at some places alone: nothing
else was made, and no other content was changed.
-/

namespace PspBoot.FileTree

variable {tree tree' : FileTree} {path : String} {place next : Place} {name : String}

/-! ### Directories that can be used -/

theorem stat_eq_ok {node : FileNode} :
    tree.stat path = .ok node ↔
      ∃ place, tree.resolve path = .ok place ∧ tree.node? place = some node := by
  unfold stat
  rw [bind_eq_ok_iff]
  apply exists_congr
  intro place
  apply and_congr_right
  intro _
  cases tree.node? place with
  | none => simp
  | some found => simp

theorem resolve_eq_ok :
    tree.resolve path = .ok place ↔
      pathFault? path = none ∧
        (FilePath.names path).foldlM tree.step (origin path) = .ok place := by
  unfold resolve
  cases pathFault? path with
  | some error => simp
  | none => simp

theorem isUsableDirectory_iff :
    tree.isUsableDirectory path = true ↔ path.toList = [] ∨ tree.stat path = .ok .directory := by
  unfold isUsableDirectory isDirectory
  rw [Bool.or_eq_true, decide_eq_true_iff, List.isEmpty_iff]
  apply or_congr_right
  cases tree.stat path with
  | error error => simp [Except.toOption]
  | ok node => simp [Except.toOption]

/-- To go on from a place it has to be a directory.  A name leads to the place itself, to the one
above it or to something that stands in it. -/
theorem step_eq_ok (h : tree.step place name = .ok next) :
    tree.node? place = some .directory ∧
      ((FilePath.isHere name = true ∧ next = place) ∨ (name = ".." ∧ next = place.up) ∨
        (FilePath.isHere name = false ∧ name ≠ ".." ∧ tree.slot place name = .ok next)) := by
  unfold step at h
  by_cases hstays : FilePath.isHere name ∨ name = ".."
  · rw [if_pos hstays] at h
    split at h
    · next hnode =>
      refine ⟨hnode, ?_⟩
      by_cases hup : name = ".."
      · rw [if_pos hup] at h
        exact .inr (.inl ⟨hup, (Except.ok.inj h).symm⟩)
      · rw [if_neg hup] at h
        exact .inl ⟨hstays.resolve_right hup, (Except.ok.inj h).symm⟩
    · cases h
  · rw [if_neg hstays] at h
    cases hslot : tree.slot place name with
    | error error =>
      rw [hslot] at h
      cases h
    | ok found =>
      obtain ⟨home, -, hnode, -, -⟩ := slot_eq_ok.mp hslot
      rw [hslot] at h
      dsimp only at h
      split at h
      · cases h
        rw [not_or, Bool.not_eq_true] at hstays
        exact ⟨hnode, .inr (.inr ⟨hstays.1, hstays.2, rfl⟩)⟩
      · cases h

/-- On the way to a directory there are only directories. -/
theorem follow_cons {names : List String} {last : Place}
    (h : (name :: names).foldlM tree.step place = .ok last)
    (hlast : tree.node? last = some .directory) :
    ∃ next, tree.step place name = .ok next ∧ tree.node? next = some .directory ∧
      names.foldlM tree.step next = .ok last := by
  rw [List.foldlM_cons, bind_eq_ok_iff] at h
  obtain ⟨next, hstep, hrest⟩ := h
  refine ⟨next, hstep, ?_, hrest⟩
  cases names with
  | nil =>
    cases hrest
    exact hlast
  | cons name names =>
    rw [List.foldlM_cons, bind_eq_ok_iff] at hrest
    obtain ⟨_, hnext, -⟩ := hrest
    exact (step_eq_ok hnext).1

/-- Where names can be followed, no directory has to be made. -/
theorem enterAll_of_follow {names : List String} {last : Place}
    (h : names.foldlM tree.step place = .ok last) (hlast : tree.node? last = some .directory)
    (count : Nat) :
    tree.enterAll place ((names.filter (!FilePath.isHere ·)).take count) = tree := by
  induction names generalizing place count with
  | nil =>
    rw [List.filter_nil, List.take_nil]
    rfl
  | cons name names ih =>
    obtain ⟨next, hstep, hnode, hrest⟩ := follow_cons h hlast
    rcases (step_eq_ok hstep).2 with ⟨hhere, rfl⟩ | ⟨rfl, rfl⟩ | ⟨hhere, hup, hslot⟩
    · rw [List.filter_cons_of_neg (by simp [hhere])]
      exact ih hrest count
    · rw [List.filter_cons_of_pos (by decide)]
      cases count with
      | zero => rfl
      | succ count =>
        rw [List.take_succ_cons, enterAll, enter, if_pos rfl]
        exact ih hrest count
    · rw [List.filter_cons_of_pos (by simp [hhere])]
      cases count with
      | zero => rfl
      | succ count =>
        have henter : tree.enter place name = .ok (tree, next) := by
          rw [enter, if_neg hup, hslot]
          simp only [bind, Except.bind, hnode]
        rw [List.take_succ_cons, enterAll, henter]
        exact ih hrest count

/-- **A directory that can be used need not be made.** -/
theorem makeDirectories_of_usable (h : tree.isUsableDirectory path = true) :
    tree.makeDirectories path = tree := by
  unfold makeDirectories
  cases hfault : pathFault? path with
  | some error => rfl
  | none =>
    rcases isUsableDirectory_iff.mp h with hempty | hstat
    · simp [pathFault?, hempty] at hfault
    · obtain ⟨last, hresolve, hnode⟩ := stat_eq_ok.mp hstat
      have hfollow := (resolve_eq_ok.mp hresolve).2
      dsimp only
      split
      · rw [List.dropLast_eq_take]
        exact enterAll_of_follow hfollow hnode _
      · have hall := enterAll_of_follow hfollow hnode
          ((FilePath.names path).filter (!FilePath.isHere ·)).length
        rw [List.take_length] at hall
        exact hall

theorem Grows.stat (h : tree.Grows tree') {node : FileNode} (hstat : tree.stat path = .ok node) :
    tree'.stat path = .ok node := by
  obtain ⟨place, hresolve, hnode⟩ := stat_eq_ok.mp hstat
  obtain ⟨hfault, hfollow⟩ := resolve_eq_ok.mp hresolve
  exact stat_eq_ok.mpr ⟨place, resolve_eq_ok.mpr ⟨hfault, h.follow _ hfollow⟩, h _ _ hnode⟩

/-- What is missing from the larger tree is missing from the smaller one. -/
theorem Grows.absent (h : tree.Grows tree') (habsent : tree'.pathExists path = false) :
    tree.pathExists path = false := by
  unfold pathExists at habsent ⊢
  cases hstat : tree.stat path with
  | error error => rfl
  | ok node =>
    rw [h.stat hstat] at habsent
    cases habsent

/-- A directory that can be used stays so. -/
theorem Grows.isUsableDirectory (h : tree.Grows tree')
    (husable : tree.isUsableDirectory path = true) : tree'.isUsableDirectory path = true :=
  isUsableDirectory_iff.mpr ((isUsableDirectory_iff.mp husable).imp_right h.stat)

/-! ### Operations on some files alone -/

/-- Nothing is different but what stands at some places and what is in the files there.  A file that
is new there has a content of its own. -/
structure AltersOnly (own : Place → Prop) (tree tree' : FileTree) : Prop where
  grows : tree.Grows tree'
  node?_eq : ∀ place, ¬own place → tree'.node? place = tree.node? place
  length_le : tree.contents.length ≤ tree'.contents.length
  content_eq : ∀ id < tree.contents.length,
    (∀ place, own place → tree.node? place ≠ some (.file id)) → tree'.content id = tree.content id
  fresh : ∀ place id, own place → tree'.node? place = some (.file id) →
    tree.node? place = some (.file id) ∨ tree.contents.length ≤ id

namespace AltersOnly

variable {own : Place → Prop}

theorem refl (tree : FileTree) : tree.AltersOnly own tree where
  grows := .refl tree
  node?_eq _ _ := rfl
  length_le := Nat.le_refl _
  content_eq _ _ _ := rfl
  fresh _ _ _ h := .inl h

theorem trans {tree'' : FileTree} (h : tree.AltersOnly own tree') (h' : tree'.AltersOnly own tree'') :
    tree.AltersOnly own tree'' where
  grows := h.grows.trans h'.grows
  node?_eq place hplace := (h'.node?_eq place hplace).trans (h.node?_eq place hplace)
  length_le := Nat.le_trans h.length_le h'.length_le
  content_eq id hid hother := by
    rw [h'.content_eq id (Nat.lt_of_lt_of_le hid h.length_le), h.content_eq id hid hother]
    intro place hplace hnode
    rcases h.fresh place id hplace hnode with hold | hnew
    · exact hother place hplace hold
    · exact absurd hid (Nat.not_lt.mpr hnew)
  fresh place id hplace hnode := by
    rcases h'.fresh place id hplace hnode with hold | hnew
    · exact h.fresh place id hplace hold
    · exact .inr (Nat.le_trans h.length_le hnew)

/-- The content of a file is replaced. -/
theorem set {id : FileId} (hplace : own place) (hnode : tree.node? place = some (.file id))
    (content : FileContent) :
    tree.AltersOnly own { tree with contents := tree.contents.set id content } where
  grows := tree.grows_contents _
  node?_eq other _ := node?_contents _ _ other
  length_le := Nat.le_of_eq List.length_set.symm
  content_eq other _ hother := by
    apply content_set_of_ne
    rintro rfl
    exact hother place hplace hnode
  fresh other _ _ hother := by
    rw [node?_contents] at hother
    exact .inl hother

/-- An empty file is made. -/
theorem addFile {names : List String} (hplace : own (.inside names))
    (hfree : tree.node? (.inside names) = none) : tree.AltersOnly own (tree.addFile names {}) where
  grows := grows_addFile hfree {}
  node?_eq place hother := node?_addFile_of_ne hfree {} fun heq => hother (heq ▸ hplace)
  length_le := by simp [FileTree.addFile]
  content_eq id hid _ := content_addFile names {} hid
  fresh place id _ hnode := by
    by_cases heq : place = .inside names
    · subst heq
      rw [node?_addFile hfree] at hnode
      cases hnode
      exact .inr (Nat.le_refl _)
    · rw [node?_addFile_of_ne hfree {} heq] at hnode
      exact .inl hnode

/-- A file is opened, and made if there is none. -/
theorem openFile {id : FileId} (hlocate : tree.locate path = .ok place) (hplace : own place)
    (hopen : tree.openFile path = .ok (id, tree')) : tree.AltersOnly own tree' := by
  obtain ⟨names, hnames, hcases⟩ := openFile_eq_ok hopen
  obtain rfl : place = .inside names := Except.ok.inj (hlocate.symm.trans hnames)
  rcases hcases with ⟨-, rfl⟩ | ⟨hfree, -, rfl⟩
  · exact .refl _
  · exact .addFile hplace hfree

/-- A file is written anew. -/
theorem writeFile {data : Bytes} (hlocate : tree.locate path = .ok place) (hplace : own place)
    (hwrite : tree.writeFile path data = .ok tree') : tree.AltersOnly own tree' := by
  obtain ⟨id, opened, hopen, rfl⟩ := writeFile_eq_ok hwrite
  have hopened := AltersOnly.openFile hlocate hplace hopen
  obtain ⟨names, hnames, hcases⟩ := openFile_eq_ok hopen
  obtain rfl : place = .inside names := Except.ok.inj (hlocate.symm.trans hnames)
  have hnode : opened.node? (.inside names) = some (.file id) := by
    rcases hcases with ⟨hnode, hsame⟩ | ⟨hfree, hid, hmade⟩
    · rw [hsame]
      exact hnode
    · rw [hmade, hid]
      exact node?_addFile hfree {}
  exact hopened.trans (.set hplace hnode _)

end AltersOnly

/-- A file can be written anew where one stands or nothing does. -/
theorem writeFile_of_locate {names : List String} (hlocate : tree.locate path = .ok (.inside names))
    (hnode : tree.node? (.inside names) = none ∨ ∃ id, tree.node? (.inside names) = some (.file id))
    (data : Bytes) : ∃ tree', tree.writeFile path data = .ok tree' := by
  rcases hnode with hfree | ⟨id, hid⟩
  · exact ⟨_, bind_eq_ok_iff.mpr ⟨_, openFile_of_free hlocate hfree, rfl⟩⟩
  · exact ⟨_, bind_eq_ok_iff.mpr ⟨_, openFile_of_locate hlocate hid, rfl⟩⟩

/-! ### A file that is lost -/

/-- The tree without what stands at a place and below it. -/
def without (tree : FileTree) (names : List String) : FileTree :=
  { tree with entries := tree.entries.filter fun entry => !names.isSuffixOf entry.1 }

/-- The place is that of the given names or lies below it. -/
def Below (names : List String) : Place → Prop
  | .outside => False
  | .inside others => names <:+ others

/-- Entries that are left out by their keys leave the others as they were. -/
theorem lookup_filter {α β : Type} [BEq α] [LawfulBEq α] (keep : α → Bool) (key : α)
    (entries : List (α × β)) :
    (entries.filter fun entry => keep entry.1).lookup key =
      if keep key then entries.lookup key else none := by
  induction entries with
  | nil => simp
  | cons entry entries ih =>
    rw [List.filter_cons, List.lookup_cons]
    by_cases hsame : key = entry.1
    · subst hsame
      by_cases hkeep : keep entry.1 = true
      · rw [if_pos hkeep, if_pos hkeep, List.lookup_cons, beq_self_eq_true]
      · rw [if_neg hkeep, ih, if_neg hkeep]
        rw [if_neg hkeep]
    · have hother : (key == entry.1) = false := beq_eq_false_iff_ne.mpr hsame
      rw [hother]
      split
      · rw [List.lookup_cons, hother]
        exact ih
      · exact ih

theorem node?_without {names : List String} (hplace : ¬Below names place) :
    (tree.without names).node? place = tree.node? place := by
  cases place with
  | outside => rfl
  | inside others =>
    have hkeep : (!names.isSuffixOf others) = true := by
      rw [Bool.not_eq_true']
      exact Bool.eq_false_iff.mpr fun h => hplace (List.isSuffixOf_iff_suffix.mp h)
    rw [node?, node?, without, lookup_filter (!names.isSuffixOf ·), if_pos hkeep]

variable {id : FileId} {names : List String}

/-- Neither the working directory nor the root is a file. -/
theorem isTop_of_file (hfile : tree.node? (.inside names) = some (.file id)) :
    Place.isTop names = false := by
  have hnode : tree.node? (.inside names) ≠ some .directory := by simp [hfile]
  exact isTop_of_node? hnode

theorem node?_without_self (hfile : tree.node? (.inside names) = some (.file id)) :
    (tree.without names).node? (.inside names) = none := by
  rw [node?_inside (isTop_of_file hfile), without, lookup_filter (!names.isSuffixOf ·),
    if_neg (by simp [List.isSuffixOf_iff_suffix])]

theorem Below.up (h : Below names place.up) : Below names place := by
  cases place with
  | outside => exact h
  | inside others =>
    cases others with
    | nil => exact absurd h id
    | cons first others =>
      rw [Place.up] at h
      split at h
      · next htop =>
        have hroot : first :: others = [Place.rootName] := by simpa [Place.isTop] using htop
        rw [hroot]
        exact h
      · exact List.IsSuffix.trans h (List.suffix_cons _ _)

theorem slot_without (hplace : ¬Below names place) :
    (tree.without names).slot place name = tree.slot place name := by
  unfold slot
  rw [node?_without hplace]

/-- A step that leads to a directory leads there without the file as well. -/
theorem step_without (hfile : tree.node? (.inside names) = some (.file id))
    (hplace : ¬Below names place) (hstep : tree.step place name = .ok next)
    (hnext : tree.node? next = some .directory) :
    (tree.without names).step place name = .ok next ∧ ¬Below names next := by
  obtain ⟨hnode, hcases⟩ := step_eq_ok hstep
  have hagain : ¬Below names next := by
    rcases hcases with ⟨-, rfl⟩ | ⟨-, rfl⟩ | ⟨-, -, hslot⟩
    · exact hplace
    · exact fun hbelow => hplace hbelow.up
    · obtain ⟨home, rfl, -, -, rfl⟩ := slot_eq_ok.mp hslot
      intro hbelow
      rcases List.suffix_cons_iff.mp hbelow with rfl | hbelow
      · rw [hfile] at hnext
        cases hnext
      · exact hplace hbelow
  refine ⟨?_, hagain⟩
  unfold step at hstep ⊢
  rw [node?_without hplace, slot_without hplace]
  split
  · next hstays =>
    rw [if_pos hstays] at hstep
    exact hstep
  · next hstays =>
    rw [if_neg hstays] at hstep
    cases hslot : tree.slot place name with
    | error error =>
      rw [hslot] at hstep
      cases hstep
    | ok found =>
      rw [hslot] at hstep
      dsimp only at hstep ⊢
      split at hstep
      · cases hstep
        rw [node?_without hagain, hnext]
        rfl
      · cases hstep

/-- **The loss of a file leaves the way to every directory open.** -/
theorem follow_without (hfile : tree.node? (.inside names) = some (.file id))
    {path : List String} {last : Place} (hplace : ¬Below names place)
    (hfollow : path.foldlM tree.step place = .ok last)
    (hlast : tree.node? last = some .directory) :
    path.foldlM (tree.without names).step place = .ok last ∧ ¬Below names last := by
  induction path generalizing place with
  | nil =>
    cases hfollow
    exact ⟨rfl, hplace⟩
  | cons name path ih =>
    obtain ⟨next, hstep, hnext, hrest⟩ := follow_cons hfollow hlast
    obtain ⟨hstep', hplace'⟩ := step_without hfile hplace hstep hnext
    rw [List.foldlM_cons, hstep']
    exact ih hplace' hrest

theorem origin_not_below (hfile : tree.node? (.inside names) = some (.file id)) (path : String) :
    ¬Below names (origin path) := by
  have htop := isTop_of_file hfile
  simp only [Place.isTop, Bool.or_eq_false_iff, decide_eq_false_iff_not] at htop
  unfold origin
  split
  · intro h
    rcases List.suffix_cons_iff.mp h with hroot | hnil
    · exact htop.2 hroot
    · exact htop.1 (List.suffix_nil.mp hnil)
  · exact fun h => htop.1 (List.suffix_nil.mp h)

/-- A file that is lost leaves its directory as it was. -/
theorem isUsableDirectory_without (hfile : tree.node? (.inside names) = some (.file id))
    (husable : tree.isUsableDirectory path = true) :
    (tree.without names).isUsableDirectory path = true := by
  rw [isUsableDirectory_iff] at husable ⊢
  apply husable.imp_right
  intro hstat
  obtain ⟨last, hresolve, hnode⟩ := stat_eq_ok.mp hstat
  obtain ⟨hfault, hfollow⟩ := resolve_eq_ok.mp hresolve
  obtain ⟨hfollow', hlast⟩ := follow_without hfile (origin_not_below hfile path) hfollow hnode
  refine stat_eq_ok.mpr ⟨last, resolve_eq_ok.mpr ⟨hfault, hfollow'⟩, ?_⟩
  rw [node?_without hlast, hnode]

/-- **A file that is lost leaves a place for every file.** -/
theorem locate_without (hfile : tree.node? (.inside names) = some (.file id))
    (hlocate : tree.locate path = .ok place) : (tree.without names).locate path = .ok place := by
  obtain ⟨hfault, directory, hfollow, hname, hslot⟩ := locate_eq_ok.mp hlocate
  obtain ⟨home, -, hnode, -, -⟩ := slot_eq_ok.mp hslot
  obtain ⟨hfollow', hdirectory⟩ := follow_without hfile (origin_not_below hfile path) hfollow hnode
  refine locate_eq_ok.mpr ⟨hfault, directory, hfollow', hname, ?_⟩
  rw [slot_without hdirectory, hslot]

/-- To remove a file is to leave it out. -/
theorem remove_of_locate (hlocate : tree.locate path = .ok (.inside names))
    (hnode : tree.node? (.inside names) = some (.file id)) :
    tree.remove path = tree.without names := by
  have hresolve : tree.resolve path = .ok (.inside names) := by
    rw [resolve_of_locate hlocate, hnode]
    rfl
  obtain ⟨-, directory, -, hname, -⟩ := locate_eq_ok.mp hlocate
  have hlast : FilePath.lastName? path = some (ownName path) := by
    have hempty : ownName path ≠ "" := fun h => hname (.inl (by simp [FilePath.isHere, h]))
    rw [FilePath.lastName?, names_eq_append path, List.filter_append,
      List.filter_cons_of_pos (by simpa using hempty), List.filter_nil, List.getLast?_concat]
  have hstays : ¬FilePath.lastName? path ∈ [some ".", some ".."] := by
    rw [hlast]
    intro hmem
    simp only [List.mem_cons, Option.some.injEq, List.not_mem_nil, or_false] at hmem
    exact hname (hmem.imp_left fun h => by simp [FilePath.isHere, h])
  have hcovers (others : List String) : covers names others = names.isSuffixOf others := by
    have hne : names ≠ [] := by
      rintro rfl
      cases isTop_of_file hnode
    simp [covers, hne]
  unfold remove without
  rw [hresolve]
  simp [hstays, hcovers]

end PspBoot.FileTree
