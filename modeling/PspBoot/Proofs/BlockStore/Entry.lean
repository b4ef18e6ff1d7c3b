import PspBoot.BlockStore.Storage
import PspBoot.Proofs.BlockStore.Sidecar
import PspBoot.Proofs.Source.Assembly
import PspBoot.Proofs.Storage.FileTree

/-!
# Cache entries

A cache entry is the two files that keep the blocks of one path in one cache directory, with the
store that may be open on them.  Its contents are those that the path may have; they are told apart
by their sizes, since the sidecar tells nothing else about them.

`Filed` is what holds of an entry once its data file has been made.  The blocks listed by the open
store are those of the store's content.  The blocks listed by the sidecar file are those of the
sidecar's content, except while a store for some other size is open that has written to the data
file: such a store has yet to write its sidecar.  A sidecar that was written but not to its end lists
nothing.
-/

namespace PspBoot

/-- The division of a content into the blocks of a store. -/
def BlockStore.gridOf (content : Bytes) : BlockGrid where
  blockSize := BlockStore.blockSize
  total := content.length

/-- The bytes of a block of a content on disk. -/
def BlockStore.blockOf (content : Bytes) (index : Nat) : Bytes :=
  (gridOf content).blockOf content index

theorem BlockStore.length_blockOf (content : Bytes) (index : Nat) :
    (blockOf content index).length = (gridOf content).width index :=
  BlockGrid.length_blockOf rfl index

/-- A data file has a block of a content. -/
def FileTree.Holds (files : FileTree) (data : FileId) (content : Bytes) (index : Nat) : Prop :=
  files.readAt data ((BlockStore.gridOf content).start index)
    ((BlockStore.gridOf content).width index) = .ok (BlockStore.blockOf content index)

namespace FileTree.Holds

variable {files files' : FileTree} {data : FileId} {content bytes : Bytes} {index written : Nat}

theorem congr (h : files.Holds data content index)
    (hcontent : files'.content data = files.content data) : files'.Holds data content index := by
  unfold Holds readAt at h ⊢
  rw [hcontent]
  exact h

/-- The blocks stay when one of them is written, or the beginning of one. -/
theorem writeAt {part : Bytes} (h : files.Holds data content index)
    (hdata : data < files.contents.length) (hpart : part <+: BlockStore.blockOf content written)
    (hwrite : files.writeAt data ((BlockStore.gridOf content).start written) part = .ok files') :
    files'.Holds data content index := by
  have hlength : part.length ≤ (BlockStore.gridOf content).width written :=
    BlockStore.length_blockOf content written ▸ hpart.length_le
  rcases Nat.lt_trichotomy index written with hlt | rfl | hgt
  · apply readAt_writeAt_disjoint hdata hwrite h (BlockStore.length_blockOf content index)
    have hstart := (BlockStore.gridOf content).start_mono (show index + 1 ≤ written from hlt)
    have hnext := (BlockStore.gridOf content).start_succ index
    have hwidth := (BlockStore.gridOf content).width_le index
    left
    omega
  · exact readAt_writeAt_prefix hdata hwrite h (BlockStore.length_blockOf content index) hpart
  · apply readAt_writeAt_disjoint hdata hwrite h (BlockStore.length_blockOf content index)
    have hstart := (BlockStore.gridOf content).start_mono (show written + 1 ≤ index from hgt)
    have hnext := (BlockStore.gridOf content).start_succ written
    have hwidth := (BlockStore.gridOf content).width_le written
    right
    omega

/-- A block that was written is there. -/
theorem of_writeAt (hdata : data < files.contents.length)
    (hwrite : files.writeAt data ((BlockStore.gridOf content).start index)
      (BlockStore.blockOf content index) = .ok files') :
    files'.Holds data content index := by
  have hself := readAt_writeAt_self hdata hwrite
  rw [BlockStore.length_blockOf] at hself
  exact hself

end FileTree.Holds

namespace CacheEntry

/-- The place of the data file in its directory. -/
def dataPlace (entry : CacheEntry) (home : List String) : Place :=
  .inside ((FileTree.ownName entry.stem ++ ".blocks") :: home)

def sidecarPlace (entry : CacheEntry) (home : List String) : Place :=
  .inside ((FileTree.ownName entry.stem ++ ".json") :: home)

theorem isEnding_blocks : FileTree.IsEnding ".blocks" where
  long := by decide
  noSeparator := by decide
  noNul := by decide

theorem isEnding_json : FileTree.IsEnding ".json" where
  long := by decide
  noSeparator := by decide
  noNul := by decide

theorem sidecarPlace_ne (entry : CacheEntry) (home : List String) :
    entry.sidecarPlace home ≠ entry.dataPlace home := by
  intro h
  have hname := (List.cons.inj (Place.inside.inj h)).1
  have hending := (String.append_right_inj _).mp hname
  exact absurd hending (by decide)

/-- Where there is a place for the data file, there is one for the sidecar beside it. -/
theorem locate_sidecarPath {entry : CacheEntry} {files : FileTree} {place : Place}
    (h : files.locate entry.dataPath = .ok place) :
    ∃ home, place = entry.dataPlace home ∧
      files.locate entry.sidecarPath = .ok (entry.sidecarPlace home) :=
  isEnding_blocks.locate_append isEnding_json (by decide) h

/-! ### What is right about an entry -/

variable {entry : CacheEntry} {known : Bytes → Prop} {files files' : FileTree} {data : FileId}
  {home : List String} {store store' : BlockStore} {open? : Option BlockStore} {content : Bytes}

/-- The contents are told apart by their sizes. -/
def Apart (known : Bytes → Prop) : Prop :=
  ∀ content other, known content → known other → content.length = other.length → content = other

/-- There is one content at most. -/
def Single (known : Bytes → Prop) : Prop :=
  ∀ content other, known content → known other → content = other

theorem single_eq (content : Bytes) : Single (· = content) :=
  fun _ _ hcontent hother => hcontent.trans hother.symm

/-- A single content is told apart from all others. -/
theorem Single.apart (h : Single known) : Apart known :=
  fun content other hcontent hother _ => h content other hcontent hother

/-- A store on a data file lists blocks of one content, and the data file has them. -/
structure Lists (entry : CacheEntry) (files : FileTree) (data : FileId) (content : Bytes)
    (store : BlockStore) : Prop where
  data_eq : store.data = data
  path_eq : store.path = entry.path
  sidecarPath_eq : store.sidecarPath = entry.sidecarPath
  size_eq : store.size = content.length
  held : store.holders ≠ 0
  filled : ∀ index ∈ store.filled, files.Holds data content index

namespace Lists

/-- A store may forget blocks and change hands. -/
theorem change (h : Lists entry files data content store) {filled : BlockStore.BlockSet}
    {holders : Nat} (hfilled : ∀ index ∈ filled, index ∈ store.filled) (hholders : holders ≠ 0) :
    Lists entry files data content { store with filled, holders } where
  data_eq := h.data_eq
  path_eq := h.path_eq
  sidecarPath_eq := h.sidecarPath_eq
  size_eq := h.size_eq
  held := hholders
  filled index hindex := h.filled index (hfilled index hindex)

/-- A block may be written, or a beginning of it, and listed if it is written in full. -/
theorem writeBlock (h : Lists entry files data content store) (hdata : data < files.contents.length)
    {index : Nat} {part : Bytes} (hpart : part <+: BlockStore.blockOf content index)
    (hwrite : files.writeAt data ((BlockStore.gridOf content).start index) part = .ok files')
    {filled : BlockStore.BlockSet} {unsaved : Bool}
    (hfilled : ∀ block ∈ filled,
      block ∈ store.filled ∨ block = index ∧ part = BlockStore.blockOf content index) :
    Lists entry files' data content { store with filled, unsaved } where
  data_eq := h.data_eq
  path_eq := h.path_eq
  sidecarPath_eq := h.sidecarPath_eq
  size_eq := h.size_eq
  held := h.held
  filled block hblock := by
    rcases hfilled block hblock with hold | ⟨rfl, rfl⟩
    · exact (h.filled block hold).writeAt hdata hpart hwrite
    · exact .of_writeAt hdata hwrite

end Lists

/-- The data file has the blocks that are listed for a content, unless the open store has written
blocks of another one and has yet to write its sidecar. -/
def Accounted (files : FileTree) (open? : Option BlockStore) (data : FileId) (content : Bytes)
    (blocks : BlockStore.BlockSet) : Prop :=
  (∀ index ∈ blocks, files.Holds data content index) ∨
    ∃ store, open? = some store ∧ store.unsaved = true ∧ store.size ≠ content.length

/-- A sidecar file lists blocks of one content that are accounted for, or it lists nothing. -/
structure SidecarLists (entry : CacheEntry) (known : Bytes → Prop) (files : FileTree)
    (open? : Option BlockStore) (data sidecar : FileId) : Prop where
  ne : sidecar ≠ data
  inRange : sidecar < files.contents.length
  listed : (∀ size, BlockStore.Sidecar.decode? entry.path size
      (files.content sidecar).toBytes = none) ∨
    ∃ content blocks, known content ∧
      (files.content sidecar).toBytes =
        BlockStore.Sidecar.encode entry.path content.length blocks ∧
      Accounted files open? data content blocks

/-- A sidecar stays right while it is not written and its blocks stay accounted for. -/
theorem SidecarLists.imp {open?' : Option BlockStore} {sidecar : FileId}
    (h : SidecarLists entry known files open? data sidecar)
    (hcontent : files'.content sidecar = files.content sidecar)
    (hlength : files'.contents.length = files.contents.length)
    (haccounted : ∀ content blocks, known content → Accounted files open? data content blocks →
      Accounted files' open?' data content blocks) :
    SidecarLists entry known files' open?' data sidecar where
  ne := h.ne
  inRange := hlength ▸ h.inRange
  listed := by
    rw [hcontent]
    apply h.listed.imp_right
    rintro ⟨content, blocks, hknown, hbytes, haccount⟩
    exact ⟨content, blocks, hknown, hbytes, haccounted content blocks hknown haccount⟩

/-- The files of an entry whose data file has been made, and the store open on them. -/
structure Filed (entry : CacheEntry) (known : Bytes → Prop) (files : FileTree)
    (open? : Option BlockStore) (data : FileId) (home : List String) : Prop where
  dataPlace : files.locate entry.dataPath = .ok (entry.dataPlace home)
  sidecarPlace : files.locate entry.sidecarPath = .ok (entry.sidecarPlace home)
  dataNode : files.node? (entry.dataPlace home) = some (.file data)
  inRange : data < files.contents.length
  sidecar : ∀ id, files.node? (entry.sidecarPlace home) = some (.file id) →
    SidecarLists entry known files open? data id
  store : ∀ store, open? = some store →
    ∃ content, known content ∧ Lists entry files data content store

namespace Filed

/-- Directories may be made without harm. -/
theorem makeDirectories (h : Filed entry known files none data home) (path : String) :
    Filed entry known (files.makeDirectories path) none data home := by
  have hgrows := files.grows_makeDirectories path
  have hcontents := files.contents_makeDirectories path
  have hcontent (id : FileId) : (files.makeDirectories path).content id = files.content id := by
    rw [FileTree.content, FileTree.content, hcontents]
  constructor
  case dataPlace => exact hgrows.locate h.dataPlace
  case sidecarPlace => exact hgrows.locate h.sidecarPlace
  case dataNode => exact hgrows _ _ h.dataNode
  case inRange =>
    rw [hcontents]
    exact h.inRange
  case sidecar =>
    intro id hnode
    have hold := h.sidecar id (FileTree.file_of_makeDirectories hnode)
    refine hold.imp (hcontent id) (congrArg List.length hcontents) ?_
    intro content blocks _ haccount
    apply haccount.imp_left
    intro hholds index hindex
    exact (hholds index hindex).congr (hcontent data)
  case store =>
    intro store hstore
    cases hstore

/-- A store may forget blocks and change hands. -/
theorem change (h : Filed entry known files (some store) data home) {filled : BlockStore.BlockSet}
    {holders : Nat} (hfilled : ∀ index ∈ filled, index ∈ store.filled) (hholders : holders ≠ 0) :
    Filed entry known files (some { store with filled, holders }) data home where
  dataPlace := h.dataPlace
  sidecarPlace := h.sidecarPlace
  dataNode := h.dataNode
  inRange := h.inRange
  sidecar id hnode := by
    refine (h.sidecar id hnode).imp rfl rfl fun content blocks _ haccount => ?_
    apply haccount.imp_right
    rintro ⟨other, hother, hunsaved, hsize⟩
    cases hother
    exact ⟨_, rfl, hunsaved, hsize⟩
  store := by
    intro changed hstore
    cases hstore
    obtain ⟨content, hknown, hlists⟩ := h.store store rfl
    exact ⟨content, hknown, hlists.change hfilled hholders⟩

/-- A block of the right content may be written, or a beginning of it, and listed if it is written in
full.  What the sidecar lists is lost if it is for another content, but then the store is one for
another size, and has to know that its sidecar is not up to date. -/
theorem writeBlock (h : Filed entry known files (some store) data home) (hapart : Apart known)
    (hknown : known content) (hsize : store.size = content.length) {index : Nat} {part : Bytes}
    (hpart : part <+: BlockStore.blockOf content index)
    (hwrite : files.writeAt data ((BlockStore.gridOf content).start index) part = .ok files')
    {filled : BlockStore.BlockSet} {unsaved : Bool}
    (hfilled : ∀ block ∈ filled,
      block ∈ store.filled ∨ block = index ∧ part = BlockStore.blockOf content index)
    (hunsaved : unsaved = true ∨ unsaved = store.unsaved ∧ Single known) :
    Filed entry known files' (some { store with filled, unsaved }) data home := by
  have hchanged := FileTree.writeAt_eq_ok hwrite
  have hgrows : files.Grows files' := hchanged ▸ files.grows_contents _
  have hlength : files'.contents.length = files.contents.length := by
    rw [hchanged]
    exact List.length_set
  have hother (id : FileId) (hne : id ≠ data) : files'.content id = files.content id := by
    rw [hchanged]
    exact FileTree.content_set_of_ne _ (Ne.symm hne)
  constructor
  case dataPlace => exact hgrows.locate h.dataPlace
  case sidecarPlace => exact hgrows.locate h.sidecarPlace
  case dataNode => exact hgrows _ _ h.dataNode
  case inRange =>
    rw [hlength]
    exact h.inRange
  case sidecar =>
    intro id hnode
    rw [hchanged, FileTree.node?_contents] at hnode
    have hold := h.sidecar id hnode
    refine hold.imp (hother id hold.ne) hlength fun listed blocks hlisted haccount => ?_
    by_cases hsame : content = listed
    · subst hsame
      rcases haccount with hholds | ⟨other, hopen, -, hne⟩
      · left
        intro block hblock
        exact (hholds block hblock).writeAt h.inRange hpart hwrite
      · cases hopen
        exact absurd hsize hne
    · right
      refine ⟨_, rfl, hunsaved.resolve_right fun hsingle => ?_, fun heq => hsame ?_⟩
      · exact hsame (hsingle.2 content listed hknown hlisted)
      · exact hapart content listed hknown hlisted (hsize.symm.trans heq)
  case store =>
    intro changed hstore
    cases hstore
    obtain ⟨other, hotherKnown, hlists⟩ := h.store store rfl
    obtain rfl := hapart content other hknown hotherKnown (hsize.symm.trans hlists.size_eq)
    exact ⟨content, hknown, hlists.writeBlock h.inRange hpart hwrite hfilled⟩

/-- The sidecar is a file of its own, whether it was there when it is opened or has just been made. -/
theorem openSidecar (h : Filed entry known files open? data home) {id : FileId}
    {opened : FileTree} (hopen : files.openFile entry.sidecarPath = .ok (id, opened)) :
    files.Grows opened ∧ opened.node? (entry.sidecarPlace home) = some (.file id) ∧
      id ≠ data ∧ id < opened.contents.length ∧ data < opened.contents.length ∧
      opened.content data = files.content data := by
  obtain ⟨names, hplace, hcases⟩ := FileTree.openFile_eq_ok hopen
  rw [h.sidecarPlace] at hplace
  obtain ⟨rfl⟩ := Place.inside.inj (Except.ok.inj hplace)
  rcases hcases with ⟨hnode, rfl⟩ | ⟨hfree, rfl, rfl⟩
  · have hold := h.sidecar id hnode
    exact ⟨.refl _, hnode, hold.ne, hold.inRange, h.inRange, rfl⟩
  · refine ⟨FileTree.grows_addFile hfree _, FileTree.node?_addFile hfree _,
      Nat.ne_of_gt h.inRange, ?_, ?_, FileTree.content_addFile _ _ h.inRange⟩
    · simp [FileTree.addFile]
    · simpa [FileTree.addFile] using Nat.lt_succ_of_lt h.inRange

/-- A sidecar that is there can be written, unless the device fails. -/
theorem not_file_of_writeFile_error (h : Filed entry known files (some store) data home)
    {text : Bytes} {error : FileError}
    (hwrite : files.writeFile store.sidecarPath text = .error error) (id : FileId) :
    files.node? (entry.sidecarPlace home) ≠ some (.file id) := by
  intro hnode
  obtain ⟨_, _, hlists⟩ := h.store store rfl
  have hopen := FileTree.openFile_of_locate h.sidecarPlace hnode
  unfold FileTree.writeFile at hwrite
  rw [hlists.sidecarPath_eq, hopen] at hwrite
  cases hwrite

/-- The sidecar may be written.  Then it lists what the store lists, or nothing if the text breaks
off. -/
theorem writeSidecar (h : Filed entry known files (some store) data home) {written : Nat}
    (hwrite : files.writeFile store.sidecarPath
      ((BlockStore.Sidecar.encode store.path store.size store.filled).take written) = .ok files')
    (unsaved : Bool) : Filed entry known files' (some { store with unsaved }) data home := by
  obtain ⟨content, hknown, hlists⟩ := h.store store rfl
  rw [hlists.sidecarPath_eq, hlists.path_eq, hlists.size_eq] at hwrite
  obtain ⟨id, opened, hopen, rfl⟩ := FileTree.writeFile_eq_ok hwrite
  generalize htext : BlockStore.Sidecar.encode entry.path content.length store.filled = text
  obtain ⟨hgrows, hnode, hne, hid, hdata, hsame⟩ := h.openSidecar hopen
  have hcontent : (FileTree.content { opened with
      contents := opened.contents.set id (.ofBytes (text.take written)) } data) =
        files.content data :=
    (FileTree.content_set_of_ne _ hne).trans hsame
  have hgrows' := hgrows.trans (opened.grows_contents
    (opened.contents.set id (.ofBytes (text.take written))))
  have hholds : ∀ index ∈ store.filled, FileTree.Holds _ data content index :=
    fun index hindex => (hlists.filled index hindex).congr hcontent
  constructor
  case dataPlace => exact hgrows'.locate h.dataPlace
  case sidecarPlace => exact hgrows'.locate h.sidecarPlace
  case dataNode => exact hgrows' _ _ h.dataNode
  case inRange => exact Nat.lt_of_lt_of_eq hdata List.length_set.symm
  case sidecar =>
    intro other hother
    rw [FileTree.node?_contents, hnode] at hother
    cases hother
    refine ⟨hne, Nat.lt_of_lt_of_eq hid List.length_set.symm, ?_⟩
    rw [FileTree.content_set_self _ hid, FileContent.toBytes_ofBytes]
    by_cases hcut : written < text.length
    · left
      intro size
      rw [← htext] at hcut ⊢
      exact BlockStore.Sidecar.decode?_take_encode hcut
    · right
      refine ⟨content, store.filled, hknown, ?_, .inl hholds⟩
      rw [List.take_of_length_le (Nat.not_lt.mp hcut), htext]
  case store =>
    intro changed hstore
    cases hstore
    exact ⟨content, hknown, hlists.data_eq, hlists.path_eq, hlists.sidecarPath_eq, hlists.size_eq,
      hlists.held, hholds⟩

/-- A store may be closed if its sidecar is up to date, or if there can be none, or if there is no
other content that it could be for. -/
theorem close (h : Filed entry known files (some store) data home)
    (hsaved : store.unsaved = false ∨
      (∀ id, files.node? (entry.sidecarPlace home) ≠ some (.file id)) ∨ Single known) :
    Filed entry known files none data home where
  dataPlace := h.dataPlace
  sidecarPlace := h.sidecarPlace
  dataNode := h.dataNode
  inRange := h.inRange
  sidecar id hnode := by
    refine (h.sidecar id hnode).imp rfl rfl fun listed blocks hlisted haccount => .inl ?_
    rcases haccount with hholds | ⟨other, hother, hunsaved, hsize⟩
    · exact hholds
    · cases hother
      rcases hsaved with hsaved | hnone | hsingle
      · simp [hsaved] at hunsaved
      · exact absurd hnode (hnone id)
      · obtain ⟨content, hknown, hlists⟩ := h.store store rfl
        obtain rfl := hsingle content listed hknown hlisted
        exact absurd hlists.size_eq hsize
  store store' hstore := by cases hstore

/-- What the sidecar file lists for the size of a content are blocks of that content. -/
theorem holds_of_listed (h : Filed entry known files none data home) (hapart : Apart known)
    (hknown : known content) {bytes : Bytes} {found : BlockStore.BlockSet}
    (hbytes : files.bytesOf entry.sidecarPath = .ok bytes)
    (hfound : BlockStore.Sidecar.decode? entry.path content.length bytes = some found) :
    ∀ index ∈ found, files.Holds data content index := by
  obtain ⟨id, hnode, rfl⟩ := FileTree.node?_of_bytesOf h.sidecarPlace hbytes
  rcases (h.sidecar id hnode).listed with
    hnothing | ⟨listed, blocks, hlisted, hencoded, hholds | ⟨store, hstore, -⟩⟩
  · rw [hnothing] at hfound
    cases hfound
  · rw [hencoded] at hfound
    obtain ⟨-, hsize, hsub⟩ := BlockStore.Sidecar.of_decode?_encode hfound
    obtain rfl := hapart content listed hknown hlisted hsize
    intro index hindex
    exact hholds index (hsub index hindex).1
  · cases hstore

/-- A store may be opened that lists nothing that is not there. -/
theorem openStore (h : Filed entry known files none data home) (hknown : known content)
    {filled : BlockStore.BlockSet} (hfilled : ∀ index ∈ filled, files.Holds data content index) :
    Filed entry known files
      (some
        { data, path := entry.path, sidecarPath := entry.sidecarPath, size := content.length,
          filled }) data home where
  dataPlace := h.dataPlace
  sidecarPlace := h.sidecarPlace
  dataNode := h.dataNode
  inRange := h.inRange
  sidecar id hnode := by
    refine (h.sidecar id hnode).imp rfl rfl fun _ _ _ haccount => ?_
    apply haccount.imp_right
    rintro ⟨store, hstore, -⟩
    cases hstore
  store := by
    intro changed hstore
    cases hstore
    exact ⟨content, hknown, rfl, rfl, rfl, rfl, Nat.one_ne_zero, hfilled⟩

end Filed

end CacheEntry

end PspBoot
