import PspBoot.Proofs.BlockStore.Traced

/-!
# Entries side by side in a cache directory

The files of all entries of a cache directory stand in one place and are named after the digests of
the paths.  Entries of different digests have nothing to do with each other: neither their files nor
their stores are the same, and what is done to one leaves the other as it was.  Entries of one digest
are the same in all but the path.
-/

namespace PspBoot

namespace Text.Hex

theorem exists_of_mem_padded {width n : Nat} {c : Char} (h : c ∈ padded width n) :
    ∃ m < 16, c = digit m := by
  induction width generalizing n with
  | zero => cases h
  | succ width ih =>
    rw [padded, List.mem_append, List.mem_singleton] at h
    rcases h with hfront | rfl
    · exact ih hfront
    · exact ⟨n % 16, Nat.mod_lt _ (by decide), rfl⟩

theorem utf8ByteSize_padded (width n : Nat) :
    (String.ofList (padded width n)).utf8ByteSize = width := by
  have hone : ∀ m < 16, (digit m).utf8Size = 1 := by decide
  induction width generalizing n with
  | zero => rfl
  | succ width ih =>
    have hlast : String.ofList [digit (n % 16)] = String.singleton (digit (n % 16)) := rfl
    rw [padded, String.ofList_append, String.utf8ByteSize_append, ih, hlast,
      String.utf8ByteSize_singleton, hone _ (Nat.mod_lt _ (by decide))]

end Text.Hex

open FileTree

namespace BlockStore.Digest

theorem length_render (path : String) : (render path).toList.length = 16 := by
  rw [render, String.toList_ofList, Text.Hex.length_padded]

/-- A digest is part of a name. -/
theorem isEnding_render (path : String) : IsEnding (render path) := by
  have hplain : ∀ m < 16, Text.Hex.digit m ≠ '/' ∧ Text.Hex.digit m ≠ '\x00' := by decide
  have hchar {c : Char} (h : c ∈ (render path).toList) : c ≠ '/' ∧ c ≠ '\x00' := by
    rw [render, String.toList_ofList] at h
    obtain ⟨m, hm, rfl⟩ := Text.Hex.exists_of_mem_padded h
    exact hplain m hm
  constructor
  case long =>
    rw [length_render]
    decide
  case noSeparator => exact fun h => (hchar h).1 rfl
  case noNul => exact fun h => (hchar h).2 rfl

theorem utf8ByteSize_render (path : String) : (render path).utf8ByteSize = 16 :=
  Text.Hex.utf8ByteSize_padded 16 _

end BlockStore.Digest

/-- Two endings make one. -/
theorem FileTree.IsEnding.append {front back : String} (h : IsEnding front) (h' : IsEnding back) :
    IsEnding (front ++ back) where
  long := by
    rw [String.toList_append, List.length_append]
    exact Nat.le_add_right_of_le h.long
  noSeparator := by
    rw [String.toList_append, List.mem_append]
    exact fun hmem => hmem.elim h.noSeparator h'.noSeparator
  noNul := by
    rw [String.toList_append, List.mem_append]
    exact fun hmem => hmem.elim h.noNul h'.noNul

namespace CacheEntry

open BlockStore

/-- The path of a cache directory with a separator behind it. -/
def root (directory : String) : String :=
  match directory.toList.getLast? with
  | none => ""
  | some c => if c = '/' then directory else directory ++ "/"

theorem stem_eq (entry : CacheEntry) :
    entry.stem = root entry.directory ++ Digest.render entry.path := by
  have hrelative : FilePath.isAbsolute (Digest.render entry.path) = false := by
    rw [FilePath.isAbsolute, decide_eq_false_iff_not]
    exact fun hhead => (Digest.isEnding_render _).noSeparator (List.mem_of_mem_head? hhead)
  rw [stem, FilePath.join, hrelative, root]
  cases entry.directory.toList.getLast? with
  | none => simp
  | some c =>
    by_cases hslash : c = '/'
    · simp [hslash]
    · simp [hslash]

variable {entry other : CacheEntry} {files files' : FileTree} {home : List String} {ledger : Ledger}

/-- The path of a file of an entry, and the name of the file. -/
theorem path_eq (entry : CacheEntry) (ending : String) :
    entry.stem ++ ending = root entry.directory ++ (Digest.render entry.path ++ ending) := by
  rw [stem_eq, String.append_assoc]

theorem name_eq (entry : CacheEntry) (ending : String) :
    ownName entry.stem ++ ending =
      ownName (root entry.directory) ++ (Digest.render entry.path ++ ending) := by
  rw [stem_eq, (Digest.isEnding_render _).ownName_append, String.append_assoc]

/-- Where there is a place for the data file of an entry, there are places for the files of all
entries of the directory. -/
theorem locate_neighbour (hdirectory : other.directory = entry.directory)
    (h : files.locate entry.dataPath = .ok (entry.dataPlace home)) :
    files.locate other.dataPath = .ok (other.dataPlace home) ∧
      files.locate other.sidecarPath = .ok (other.sidecarPlace home) := by
  have hlong {ending : String} (hending : IsEnding ending) (path : String) :
      IsEnding (Digest.render path ++ ending) := (Digest.isEnding_render path).append hending
  have hsize : (Digest.render other.path ++ ".blocks").utf8ByteSize =
      (Digest.render entry.path ++ ".blocks").utf8ByteSize := by
    rw [String.utf8ByteSize_append, String.utf8ByteSize_append, Digest.utf8ByteSize_render,
      Digest.utf8ByteSize_render]
  rw [dataPath, path_eq] at h
  obtain ⟨home', hplace, hdata⟩ := (hlong isEnding_blocks _).locate_append
    (hlong isEnding_blocks other.path) (Nat.le_of_eq hsize) h
  obtain rfl : home = home' := (List.cons.inj (Place.inside.inj hplace)).2
  rw [← hdirectory, ← path_eq, ← name_eq] at hdata
  obtain ⟨home', hplace, hsidecar⟩ := locate_sidecarPath hdata
  obtain rfl : home = home' := (List.cons.inj (Place.inside.inj hplace)).2
  exact ⟨hdata, hsidecar⟩

/-- Names of files tell digests apart, whatever their endings are. -/
theorem digest_eq_of_name_eq {directory path path' ending ending' : String}
    (h : ownName (root directory) ++ (Digest.render path ++ ending) =
      ownName (root directory) ++ (Digest.render path' ++ ending')) :
    Digest.render path = Digest.render path' := by
  have hlists := congrArg String.toList ((String.append_right_inj _).mp h)
  rw [String.toList_append, String.toList_append] at hlists
  apply String.toList_inj.mp
  exact (List.append_inj hlists
    ((Digest.length_render path).trans (Digest.length_render path').symm)).1

/-- Entries of different digests own different places. -/
theorem not_owns (hdirectory : other.directory = entry.directory)
    (hdigest : Digest.render other.path ≠ Digest.render entry.path) {place : Place}
    (h : entry.Owns home place) : ¬other.Owns home place := by
  have hname {ending ending' : String} :
      Place.inside ((ownName other.stem ++ ending') :: home) ≠
        .inside ((ownName entry.stem ++ ending) :: home) := by
    intro hplace
    have hsame := (List.cons.inj (Place.inside.inj hplace)).1
    rw [name_eq, name_eq, hdirectory] at hsame
    exact hdigest (digest_eq_of_name_eq hsame)
  rintro (hdata | hsidecar)
  · rcases h with hown | hown
    · exact hname (hdata.symm.trans hown)
    · exact hname (hdata.symm.trans hown)
  · rcases h with hown | hown
    · exact hname (hsidecar.symm.trans hown)
    · exact hname (hsidecar.symm.trans hown)

/-- Keys of stores tell digests apart. -/
theorem digest_eq_of_key_eq (hkey : other.key = entry.key)
    (hdirectory : other.directory = entry.directory) :
    Digest.render other.path = Digest.render entry.path := by
  have hlast (entry : CacheEntry) : entry.key.names.getLast? =
      some (ownName (root entry.directory) ++ (Digest.render entry.path ++ ".blocks")) := by
    have hending := (Digest.isEnding_render entry.path).append isEnding_blocks
    have hname := hending.ne_here (ownName (root entry.directory))
    rw [not_or, Bool.not_eq_true] at hname
    rw [key, dataPath, path_eq]
    generalize Digest.render entry.path ++ ".blocks" = ending at hending hname
    generalize root entry.directory = front at hname
    have hkept : [ownName front ++ ending].filter (fun name => !FilePath.isHere name) =
        [ownName front ++ ending] := List.filter_cons_of_pos (by rw [hname.1]; rfl)
    rw [FilePath.key, FilePath.names_append front hending.noSeparator, List.filter_append]
    change List.getLast? (_ ++ (_ ++ [ownName front ++ ending].filter _)) = _
    rw [hkept, ← List.append_assoc, List.getLast?_concat]
  have hsame := (hlast other).symm.trans ((congrArg (·.names.getLast?) hkey).trans (hlast entry))
  rw [hdirectory] at hsame
  exact digest_eq_of_name_eq (Option.some.inj hsame)

/-- Entries of one digest have the same files and the same store. -/
theorem stem_eq_of_digest (hdirectory : other.directory = entry.directory)
    (hdigest : Digest.render other.path = Digest.render entry.path) : other.stem = entry.stem := by
  rw [stem_eq, stem_eq, hdirectory, hdigest]

theorem owns_of_digest (hdirectory : other.directory = entry.directory)
    (hdigest : Digest.render other.path = Digest.render entry.path) {place : Place}
    (h : other.Owns home place) : entry.Owns home place := by
  have hstem := stem_eq_of_digest hdirectory hdigest
  rw [Owns, dataPlace, sidecarPlace, hstem] at h
  exact h

end CacheEntry

namespace Storage

open BlockStore

variable {storage storage' : Storage} {entry other : CacheEntry} {home : List String}
  {ledger : Ledger} {I : Ledger → Prop}

/-- What is kept of an entry is kept of all entries of its digest. -/
theorem Keeps.of_digest (h : storage.Keeps entry home ledger)
    (hdirectory : other.directory = entry.directory)
    (hdigest : Digest.render other.path = Digest.render entry.path) :
    storage.Keeps other home ledger := by
  have hstem := CacheEntry.stem_eq_of_digest hdirectory hdigest
  have hdata : other.dataPath = entry.dataPath := by
    rw [CacheEntry.dataPath, CacheEntry.dataPath, hstem]
  have hsidecar : other.sidecarPath = entry.sidecarPath := by
    rw [CacheEntry.sidecarPath, CacheEntry.sidecarPath, hstem]
  have hdataPlace : other.dataPlace home = entry.dataPlace home := by
    rw [CacheEntry.dataPlace, CacheEntry.dataPlace, hstem]
  have hsidecarPlace : other.sidecarPlace home = entry.sidecarPlace home := by
    rw [CacheEntry.sidecarPlace, CacheEntry.sidecarPlace, hstem]
  have hkey : other.key = entry.key := by
    rw [CacheEntry.key, CacheEntry.key, hdata]
  obtain ⟨hstands, hstore, howned⟩ := h
  refine ⟨⟨?_, ?_, ?_, ?_, hstands.inRange, hstands.file_eq, ?_⟩, ?_, ?_⟩
  · rw [hdirectory]
    exact hstands.usable
  · rw [hdata, hdataPlace]
    exact hstands.dataPlace
  · rw [hsidecar, hsidecarPlace]
    exact hstands.sidecarPlace
  · rw [hdataPlace]
    exact hstands.dataNode
  · have hsays := hstands.sidecar
    rw [CacheEntry.SidecarSays.eq_def] at hsays ⊢
    rw [hsidecarPlace]
    exact hsays
  · rw [hkey]
    exact hstore
  · rw [hsidecar]
    exact howned

/-- An entry has its place in a directory: its files are still to be made there, or are as a ledger
says. -/
inductive Placed (storage : Storage) (entry : CacheEntry) (I : Ledger → Prop)
    (home : List String) : Prop
  | vacant (hclosed : storage.store? entry.key = none)
      (h : entry.Vacant storage.files home none)
  | kept {ledger : Ledger} (h : storage.Keeps entry home ledger) (hI : I ledger)

/-- The files of an entry are files that there are. -/
theorem Placed.inRange (h : storage.Placed entry I home) {place : Place} {id : FileId}
    (howns : entry.Owns home place) (hnode : storage.files.node? place = some (.file id)) :
    id < storage.files.contents.length := by
  cases h with
  | vacant hclosed h =>
    rcases howns with rfl | rfl
    · cases h.dataFree.symm.trans hnode
    · cases h.sidecar.symm.trans hnode
  | kept h hI =>
    rcases howns with rfl | rfl
    · cases h.stands.dataNode.symm.trans hnode
      exact h.stands.inRange
    · rcases h.stands.sidecar_cases with ⟨-, hnone⟩ | ⟨label, sidecar, -, hsidecar, -, hrange, -⟩
      · cases hnone.symm.trans hnode
      · cases hsidecar.symm.trans hnode
        exact hrange

/-- What is done to an entry leaves those of other digests as they were. -/
theorem Placed.confined (h : storage.Placed other I home)
    (hconfined : Confined entry home storage storage')
    (hdirectory : other.directory = entry.directory)
    (hdigest : Digest.render other.path ≠ Digest.render entry.path)
    (hapart : ∀ place place' id, entry.Owns home place → other.Owns home place' →
      storage.files.node? place = some (.file id) → storage.files.node? place' ≠ some (.file id)) :
    storage'.Placed other I home := by
  have hstores := hconfined.stores other.key
    fun hkey => hdigest (CacheEntry.digest_eq_of_key_eq hkey hdirectory)
  have hfree {place : Place} (howns : other.Owns home place) :
      storage'.files.node? place = storage.files.node? place :=
    hconfined.files.node?_eq place fun hown => CacheEntry.not_owns hdirectory hdigest hown howns
  have hgrows := hconfined.files.grows
  cases h with
  | vacant hclosed h =>
    refine .vacant (hstores.trans hclosed) ⟨hgrows.isUsableDirectory h.usable,
      hgrows.locate h.dataPlace, hgrows.locate h.sidecarPlace, ?_, ?_⟩
    · exact (hfree (.inl rfl)).trans h.dataFree
    · exact (hfree (.inr rfl)).trans h.sidecar
  | kept h hI =>
    refine .kept ⟨?_, hstores.trans h.store_eq, h.owned⟩ hI
    refine h.stands.congr hgrows hconfined.files.length_le ?_ ?_
    · exact fun hnone => (hfree (.inr rfl)).trans hnone
    · intro place id howns hnode hid
      apply hconfined.files.content_eq id hid
      exact fun place' hown hnode' => hapart place' place id hown howns hnode' hnode

/-- Some entries of a cache directory all have their places there, and no file belongs to two of
different digests. -/
structure Settled (storage : Storage) (entries : CacheEntry → Prop) (I : Ledger → Prop)
    (home : List String) : Prop where
  placed : ∀ entry, entries entry → storage.Placed entry I home
  apart : ∀ entry other, entries entry → entries other →
    Digest.render other.path ≠ Digest.render entry.path → ∀ place place' id,
      entry.Owns home place → other.Owns home place' →
        storage.files.node? place = some (.file id) → storage.files.node? place' ≠ some (.file id)

variable {entries : CacheEntry → Prop} {place place' : Place} {id : FileId}

/-- The files of an entry are not among those that another one of a different digest gets. -/
theorem Settled.apart_of_confined (h : storage.Settled entries I home) (hentry : entries entry)
    (hother : entries other) (hconfined : Confined entry home storage storage')
    (hdirectory : other.directory = entry.directory)
    (hdigest : Digest.render other.path ≠ Digest.render entry.path)
    (howns : entry.Owns home place) (howns' : other.Owns home place')
    (hnode : storage'.files.node? place = some (.file id)) :
    storage'.files.node? place' ≠ some (.file id) := by
  rw [hconfined.files.node?_eq place' fun hown =>
    CacheEntry.not_owns hdirectory hdigest hown howns']
  intro hnode'
  rcases hconfined.files.fresh place id howns hnode with hold | hnew
  · exact h.apart entry other hentry hother hdigest place place' id howns howns' hold hnode'
  · exact absurd ((h.placed other hother).inRange howns' hnode') (Nat.not_lt.mpr hnew)

/-- **What is done to one entry leaves all entries of the directory in their places.** -/
theorem Settled.confined (h : storage.Settled entries I home) (hentry : entries entry)
    (hdirectory : ∀ other, entries other → other.directory = entry.directory)
    (hconfined : Confined entry home storage storage')
    (hkeeps : storage'.Keeps entry home ledger) (hI : I ledger) :
    storage'.Settled entries I home := by
  constructor
  case placed =>
    intro other hother
    by_cases hdigest : Digest.render other.path = Digest.render entry.path
    · exact .kept (hkeeps.of_digest (hdirectory other hother) hdigest) hI
    · exact (h.placed other hother).confined hconfined (hdirectory other hother) hdigest
        (h.apart entry other hentry hother hdigest)
  case apart =>
    intro first second hfirst hsecond hne place place' id howns howns' hnode hnode'
    have hhome {other : CacheEntry} (hother : entries other) := hdirectory other hother
    by_cases hentryFirst : Digest.render first.path = Digest.render entry.path
    · exact h.apart_of_confined hentry hsecond hconfined (hhome hsecond)
        (fun hsame => hne (hsame.trans hentryFirst.symm))
        (CacheEntry.owns_of_digest (hhome hfirst) hentryFirst howns) howns' hnode hnode'
    by_cases hentrySecond : Digest.render second.path = Digest.render entry.path
    · exact h.apart_of_confined hentry hfirst hconfined (hhome hfirst) hentryFirst
        (CacheEntry.owns_of_digest (hhome hsecond) hentrySecond howns') howns hnode' hnode
    have hfree {other : CacheEntry} (hother : entries other)
        (hdigest : Digest.render other.path ≠ Digest.render entry.path) {place : Place}
        (howns : other.Owns home place) :
        storage'.files.node? place = storage.files.node? place :=
      hconfined.files.node?_eq place fun hown =>
        CacheEntry.not_owns (hhome hother) hdigest hown howns
    rw [hfree hfirst hentryFirst howns] at hnode
    rw [hfree hsecond hentrySecond howns'] at hnode'
    exact h.apart first second hfirst hsecond hne place place' id howns howns' hnode hnode'

/-- An operation on one entry that does nothing unless its store is open. -/
theorem Settled.operate (h : storage.Settled entries I home) (hentry : entries entry)
    (hdirectory : ∀ other, entries other → other.directory = entry.directory)
    (hclosed : storage.store? entry.key = none → storage' = storage)
    (hopen : ∀ ledger, storage.Keeps entry home ledger → I ledger →
      ∃ ledger', (storage'.Keeps entry home ledger' ∧ Confined entry home storage storage') ∧
        I ledger') :
    storage'.Settled entries I home := by
  cases h.placed entry hentry with
  | vacant hnone _ =>
    rw [hclosed hnone]
    exact h
  | kept hkeeps hI =>
    obtain ⟨ledger', ⟨hkeeps', hconfined⟩, hI'⟩ := hopen _ hkeeps hI
    exact h.confined hentry hdirectory hconfined hkeeps' hI'

/-- A store is opened among entries that have their places. -/
theorem Settled.openStore (h : storage.Settled entries I home) (hentry : entries entry)
    (hdirectory : ∀ other, entries other → other.directory = entry.directory)
    (hblank : ∀ ledger : Ledger, ledger.label? = none → ledger.store? = none → I ledger) {size : Nat}
    (hI : ∀ ledger, I ledger → I (ledger.openStore entry size).2) :
    (storage.openStore entry size).2.Settled entries I home := by
  cases h.placed entry hentry with
  | vacant hclosed hvacant =>
    have hprepare : storage.prepare entry = storage := by
      rw [Storage.prepare, makeDirectories_of_usable hvacant.usable]
    obtain ⟨-, hkeeps, hconfined⟩ := openStore_of_vacant hclosed (hprepare.symm ▸ hvacant) size
    rw [hprepare] at hconfined
    exact h.confined hentry hdirectory hconfined hkeeps (hI _ (hblank _ rfl rfl))
  | kept hkeeps hledger =>
    obtain ⟨-, hkeeps', hconfined⟩ := hkeeps.openStore size
    exact h.confined hentry hdirectory hconfined hkeeps' (hI _ hledger)

/-- Entries that have never been used find their places when the first store of one of them is
opened; if there is none in the directory, they stay unused. -/
theorem untouched_openStore (h : ∀ entry, entries entry → storage.Untouched entry)
    (hentry : entries entry)
    (hdirectory : ∀ other, entries other → other.directory = entry.directory)
    (hblank : ∀ ledger : Ledger, ledger.label? = none → ledger.store? = none → I ledger) {size : Nat}
    (hI : ∀ ledger, I ledger → I (ledger.openStore entry size).2) :
    (∀ other, entries other → (storage.openStore entry size).2.Untouched other) ∨
      ∃ home, (storage.openStore entry size).2.Settled entries I home := by
  have hprepare {other : CacheEntry} (hother : entries other) :
      storage.prepare other = storage.prepare entry := by
    rw [Storage.prepare, Storage.prepare, hdirectory other hother]
  rcases (h entry hentry).vacant size with hnone | ⟨home, hvacant⟩
  · left
    intro other hother
    rw [hnone, ← hprepare hother]
    exact (h other hother).prepare
  · right
    have hopen : storage.openStore entry size = (storage.prepare entry).openStore entry size := by
      have hclosed := (h entry hentry).closed
      have hclosed' : (storage.prepare entry).store? entry.key = none := hclosed
      have hagain : (storage.prepare entry).prepare entry = storage.prepare entry := by
        rw [Storage.prepare, Storage.prepare, makeDirectories_makeDirectories]
      rw [Storage.openStore, Storage.openStore, hclosed, hclosed']
      dsimp only
      rw [hagain]
    have hempty {other : CacheEntry} (hother : entries other) :
        other.Vacant (storage.prepare entry).files home none := by
      obtain ⟨hdata, hsidecar⟩ :=
        CacheEntry.locate_neighbour (hdirectory other hother) hvacant.dataPlace
      have huntouched := h other hother
      have hfiles : storage.files.makeDirectories other.directory =
          (storage.prepare entry).files := congrArg files (hprepare hother)
      refine ⟨(hdirectory other hother).symm ▸ hvacant.usable, hdata, hsidecar, ?_, ?_⟩
      · rw [← Option.isNone_iff_eq_none, ← Option.isSome_eq_false_iff,
          ← pathExists_of_locate hdata, ← hfiles]
        exact huntouched.noData
      · refine (?_ : (storage.prepare entry).files.node? (other.sidecarPlace home) = none)
        rw [← Option.isNone_iff_eq_none, ← Option.isSome_eq_false_iff,
          ← pathExists_of_locate hsidecar, ← hfiles]
        exact huntouched.noSidecar
    have hsettled : (storage.prepare entry).Settled entries I home := by
      constructor
      case placed => exact fun other hother => .vacant (h other hother).closed (hempty hother)
      case apart =>
        intro first _ hfirst _ _ place _ id howns _ hnode
        rcases howns with rfl | rfl
        · cases (hempty hfirst).dataFree.symm.trans hnode
        · cases (hempty hfirst).sidecar.symm.trans hnode
    refine ⟨home, ?_⟩
    rw [hopen]
    exact hsettled.openStore hentry hdirectory hblank hI

/-- Some entries of a cache directory have never been used, or have their places there. -/
def Tended (storage : Storage) (entries : CacheEntry → Prop) (I : Ledger → Prop) : Prop :=
  (∀ entry, entries entry → storage.Untouched entry) ∨ ∃ home, storage.Settled entries I home

/-- An entry whose store is open is kept. -/
theorem Tended.kept (h : storage.Tended entries I) (hentry : entries entry) {store : BlockStore}
    (hopen : storage.store? entry.key = some store) : storage.Kept entry I := by
  rcases h with hunused | ⟨home, hsettled⟩
  · cases (hunused entry hentry).closed.symm.trans hopen
  · cases hsettled.placed entry hentry with
    | vacant hclosed _ => cases hclosed.symm.trans hopen
    | kept hkeeps hI => exact ⟨home, _, hkeeps, hI⟩

/-- When a program ends, its stores are gone.  What is known of the files may rest on what the open
stores know, and has to be known without them. -/
theorem Tended.forget (h : storage.Tended entries I)
    (hI : ∀ entry, entries entry → ∀ ledger : Ledger, storage.store? entry.key = ledger.store? →
      I ledger → I { ledger with store? := none }) :
    Tended { storage with stores := [] } entries I := by
  rcases h with hunused | ⟨home, hsettled⟩
  · exact .inl fun entry hentry =>
      ⟨rfl, (hunused entry hentry).noData, (hunused entry hentry).noSidecar⟩
  · refine .inr ⟨home, fun entry hentry => ?_, hsettled.apart⟩
    cases hsettled.placed entry hentry with
    | vacant _ h => exact .vacant rfl h
    | kept hkeeps hledger =>
      refine .kept ⟨hkeeps.stands.setStore none, rfl, ?_⟩ (hI entry hentry _ hkeeps.store_eq hledger)
      intro store hstore
      cases hstore

/-- An operation that does nothing unless the store of an entry is open. -/
theorem Tended.operate (h : storage.Tended entries I) (hentry : entries entry)
    (hdirectory : ∀ other, entries other → other.directory = entry.directory)
    (hclosed : storage.store? entry.key = none → storage' = storage)
    (hopen : ∀ home ledger, storage.Keeps entry home ledger → I ledger →
      ∃ ledger', (storage'.Keeps entry home ledger' ∧ Confined entry home storage storage') ∧
        I ledger') :
    storage'.Tended entries I := by
  rcases h with hunused | ⟨home, hsettled⟩
  · left
    rw [hclosed (hunused entry hentry).closed]
    exact hunused
  · exact .inr ⟨home, hsettled.operate hentry hdirectory hclosed (hopen home)⟩

/-- **What is stable for ledgers is kept up for all entries of a cache directory at once.** -/
theorem upkeep_tended {directory : String} {known : String → Nat → Prop}
    {good : String → Nat → Nat → Bytes → Prop} (hstable : Ledger.Stable I directory known good)
    (hblank : ∀ ledger : Ledger, ledger.label? = none → ledger.store? = none → I ledger)
    (hdirectory : ∀ entry, entries entry → entry.directory = directory)
    (hknown : ∀ path size, known path size → entries { directory, path }) :
    Upkeep (fun storage => storage.Tended entries I) directory known good where
  openStore := by
    intro storage path size h hpath
    have hI : ∀ ledger, I ledger → I (ledger.openStore { directory, path } size).2 :=
      fun ledger hledger => hstable.openStore hledger hpath
    rcases h with hunused | ⟨home, hsettled⟩
    · exact untouched_openStore hunused (hknown path size hpath) hdirectory hblank hI
    · exact .inr ⟨home, hsettled.openStore (hknown path size hpath) hdirectory hblank hI⟩
  loadBlock := by
    intro storage path size h hpath index
    apply h.operate (hknown path size hpath) hdirectory
    · intro hclosed
      rw [Storage.loadBlock, hclosed]
    · exact fun home ledger hkeeps hI =>
        ⟨_, (hkeeps.loadBlock index).2, hstable.loadBlock index hI⟩
  saveBlock := by
    intro storage path size store index block h hpath hstore hinside hfree hlength hgood
    apply h.operate (hknown path size hpath) hdirectory
    · intro hclosed
      cases hclosed.symm.trans hstore
    · exact fun home ledger hkeeps hI => ⟨_, hkeeps.saveBlock index block,
        hstable.saveBlock hI (hkeeps.store_eq.symm.trans hstore) hinside hfree hlength hgood⟩
  saveSidecar := by
    intro storage path size h hpath
    apply h.operate (hknown path size hpath) hdirectory
    · intro hclosed
      rw [Storage.saveSidecar, hclosed]
    · exact fun home ledger hkeeps hI => ⟨_, hkeeps.saveSidecar, hstable.saveSidecar hI⟩
  release := by
    intro storage path size h hpath
    apply h.operate (hknown path size hpath) hdirectory
    · intro hclosed
      rw [Storage.release, hclosed]
    · exact fun home ledger hkeeps hI => ⟨_, hkeeps.release, hstable.release hI⟩

end Storage

end PspBoot
