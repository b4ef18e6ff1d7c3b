import PspBoot.Proofs.BlockStore.Traced
import PspBoot.Proofs.Chain.Custody

/-!
# What a program that ends at any time leaves behind

The files of a cache entry are written at different times: a block when it is stored, the sidecar
when it is saved or the last layer is closed.  A program may end between any two steps, and what its
layers had yet to write is lost.  The main statement says which of the blocks that the sidecar lists
at any time are really in the data file: all but those that the open store has written over.
-/

namespace PspBoot

variable {η : Type}

namespace EntryUsers

open BlockStore

variable {entry : CacheEntry} {contents : Nat → Bytes} {J : η → Prop} {start : World η}

/-- The sizes that an entry may have. -/
def Sized (entry : CacheEntry) (contents : Nat → Bytes) (path : String) (size : Nat) : Prop :=
  path = entry.path ∧ (contents size).length = size

/-- What is kept of an entry whose contents are told apart by their sizes. -/
def KeepsTrace (entry : CacheEntry) (contents : Nat → Bytes) (storage : Storage) : Prop :=
  storage.Untouched entry ∨
    storage.Kept entry (Ledger.Traced (fun _ => contents) (Sized entry contents))

/-- The users of one entry keep its blocks traced. -/
theorem upkeep_keepsTrace (entry : CacheEntry) (contents : Nat → Bytes) :
    Storage.Upkeep (KeepsTrace entry contents) entry.directory (Sized entry contents)
      (Ledger.Genuine fun _ => contents) := by
  have hstable : Ledger.Stable (Ledger.Traced (fun _ => contents) (Sized entry contents))
      entry.directory _ _ := Ledger.Traced.stable entry.directory fun _ _ h => h.2
  refine Storage.upkeep_kept hstable And.left id fun hnew hknown => ?_
  have hblank (ledger : Ledger) (hlabel : ledger.label? = none) (hstore : ledger.store? = none) :
      ledger.Traced (fun _ => contents) (Sized entry contents) := .of_blank hlabel hstore
  rcases hnew.openStore_kept hblank hstable hknown with hrefused | ⟨-, hkept⟩
  · rw [hrefused]
    exact .inl hnew.prepare
  · exact .inr hkept

/-- A layer that may be attached to one entry may always be. -/
theorem admitted_of_allowed {users : EntryUsers η} {next : EntryStep η}
    (hnext : Allowed entry.path contents J next) :
    Admitted entry.directory (Sized entry contents) (Ledger.Genuine fun _ => contents) J users
      next := by
  cases next with
  | attach size inner =>
    obtain ⟨hlength, htrusted⟩ := hnext
    have hpath : inner.locator.path = entry.path := by
      obtain ⟨P, hchain, -⟩ := htrusted
      exact hchain.path_eq
    have hcacheable := htrusted.cacheable
      (Ledger.Genuine (fun _ => contents) inner.locator.path size) fun index _ => by
        rw [BlockStore.blockOf, BlockStore.gridOf, BlockStore.gridFor, hlength]
    rw [hlength] at hcacheable
    exact ⟨⟨hpath, hlength⟩, hcacheable, fun lease _ hsize => ⟨hsize, fun _ _ hgood => hgood⟩⟩
  | ask | saveSidecar | close => trivial

/-- A run of layers over one entry keeps its blocks traced. -/
theorem custody_run (hhost : J start.host) (hnew : start.storage.Untouched entry)
    (steps : List (EntryStep η)) (hsteps : ∀ next ∈ steps, Allowed entry.path contents J next) :
    Custody (KeepsTrace entry contents) entry.directory (Sized entry contents)
      (Ledger.Genuine fun _ => contents) J (run entry.directory { world := start } steps) := by
  have hclosed (key : FilePath.Key) (hours : Ours entry.directory (Sized entry contents) key) :
      start.storage.store? key = none := by
    obtain ⟨path, size, ⟨rfl, -⟩, rfl⟩ := hours
    exact hnew.closed
  apply (Custody.nobody hhost (.inl hnew) hclosed).run (upkeep_keepsTrace entry contents)
  rintro before next after rfl
  exact admitted_of_allowed (hsteps next (by simp))

/-- **Which listed blocks survive the end of a program.**  In whatever state a run of layers over one
entry is stopped, a block that the sidecar file lists for a size is in the data file as it should be,
unless a store of another size is open, has stored a block of the same number, and has other bytes in
it. -/
theorem listed_block_run_iff (contents : Nat → Bytes) (J : η → Prop) {start : World η}
    (hhost : J start.host) (hnew : start.storage.Untouched entry) (steps : List (EntryStep η))
    (hsteps : ∀ next ∈ steps, Allowed entry.path contents J next) {size index : Nat}
    (hlisted : index ∈ entry.listed
      (run entry.directory { world := start } steps).world.storage.files size) :
    let storage := (run entry.directory { world := start } steps).world.storage
    let grid := gridFor size
    Bytes.slice (entry.dataBytes storage.files) (grid.start index) (grid.width index) =
        grid.blockOf (contents size) index ↔
      ∀ store, storage.store? entry.key = some store → store.size ≠ size → index ∈ store.filled →
        ∀ offset, grid.Covers index offset → store.grid.Covers index offset →
          (contents size)[offset]? = (contents store.size)[offset]? := by
  have hcustody := custody_run hhost hnew steps hsteps
  intro storage grid
  rcases hcustody.kept with huntouched | ⟨home, ledger, hkeeps, htraced⟩
  · rw [huntouched.listed_eq_nil] at hlisted
    cases hlisted
  · rw [hkeeps.stands.listed_eq] at hlisted
    have hiff := htraced.listed_block_iff hlisted
    rw [hkeeps.stands.dataBytes_eq, FileContent.slice_toBytes, hiff, hkeeps.store_eq]
    constructor
    · intro hagree store hopen hother
      exact hagree store hopen fun hsame => hother hsame.2
    · intro hagree store hopen hother
      apply hagree store hopen
      exact fun hsize => hother ⟨(htraced.store_known store hopen).1, hsize⟩

/-- A store of another size does no harm as long as it has stored nothing. -/
theorem listed_block_run_before_write :
    let entry : CacheEntry := { directory := "cache", path := "http://host/game" }
    let inner (size : Nat) : Layer Unit :=
      .supplied (.ofContent (.ofPath entry.path) (List.replicate size (.ofNat size)))
    let steps : List (EntryStep Unit) :=
      [.attach 3 (inner 3), .ask 0 (.readAt 0 3), .close 0, .attach 2 (inner 2)]
    let storage := (run entry.directory { world := { host := () } } steps).world.storage
    0 ∈ entry.listed storage.files 3 ∧
      Bytes.slice (entry.dataBytes storage.files) 0 3 = [3, 3, 3] := by
  intro entry inner steps storage
  have hnew : ({} : Storage).Untouched entry := ⟨rfl, by decide +kernel, by decide +kernel⟩
  have hinner (size : Nat) : Allowed entry.path (fun size => List.replicate size (.ofNat size))
      (fun _ => True) (.attach size (inner size)) :=
    ⟨List.length_replicate, Layer.trusted_supplied (Source.shows_ofContent _ _ 0)⟩
  have hsteps : ∀ next ∈ steps, Allowed entry.path
      (fun size => List.replicate size (.ofNat size)) (fun _ => True) next := by
    intro next hnext
    simp only [steps, List.mem_cons, List.not_mem_nil, or_false] at hnext
    rcases hnext with rfl | rfl | rfl | rfl
    · exact hinner 3
    · trivial
    · trivial
    · exact hinner 2
  have hlisted : 0 ∈ entry.listed storage.files 3 := by decide +kernel
  refine ⟨hlisted, ?_⟩
  refine (listed_block_run_iff _ (fun _ => True) trivial hnew steps hsteps hlisted).mpr ?_
  intro store hopen _ hfilled
  have hempty : (storage.store? entry.key).map BlockStore.filled = some [] := by decide +kernel
  have hstored : some store.filled = some [] :=
    (congrArg (Option.map BlockStore.filled) hopen).symm.trans hempty
  rw [Option.some.inj hstored] at hfilled
  cases hfilled

/-- What it stores is believed to be of the old size.  Two bytes that are read for a source which has
become shorter spoil a block that the sidecar file still lists. -/
theorem listed_block_lost :
    let entry : CacheEntry := { directory := "cache", path := "http://host/game" }
    let contents (size : Nat) : Bytes := List.replicate size (.ofNat size)
    let inner (size : Nat) : Layer Unit :=
      .supplied (.ofContent (.ofPath entry.path) (contents size))
    let steps : List (EntryStep Unit) :=
      [.attach 3 (inner 3), .ask 0 (.readAt 0 3), .close 0, .attach 2 (inner 2),
        .ask 0 (.readAt 0 2)]
    let storage := (run entry.directory { world := { host := () } } steps).world.storage
    (∀ next ∈ steps, Allowed entry.path contents (fun _ => True) next) ∧
      0 ∈ entry.listed storage.files 3 ∧
        Bytes.slice (entry.dataBytes storage.files) 0 3 = [2, 2, 3] ∧ contents 3 = [3, 3, 3] := by
  intro entry contents inner steps storage
  have hinner (size : Nat) :
      Allowed entry.path contents (fun _ => True) (.attach size (inner size)) :=
    ⟨List.length_replicate, Layer.trusted_supplied (Source.shows_ofContent _ _ 0)⟩
  refine ⟨?_, by decide +kernel, by decide +kernel, by decide⟩
  intro next hnext
  simp only [steps, List.mem_cons, List.not_mem_nil, or_false] at hnext
  rcases hnext with rfl | rfl | rfl | rfl | rfl
  · exact hinner 3
  · trivial
  · trivial
  · exact hinner 2
  · trivial

end EntryUsers

end PspBoot
