import Mathlib.Control.Monad.Basic
import PspBoot.Proofs.Image.Foreseen

/-!
# The order of identification

Many locators are identified one after another, in some order, and each result is put where its
locator stands in the list (`Opener.surveyInOrder`).  The chains share the transport, the cache
directory and the stores that are open in it, so each of them changes the world in which the next one
is opened.  As long as nobody has been misled before (`Storage.LeftBy`), none of this reaches the
results: each locator is identified as it is alone, whatever the order.
-/

namespace PspBoot

variable {η : Type}

namespace Opener

variable {opener : Opener η} {locators : List Locator} {rest : World η → Prop}
  {verdict : Locator → Identified} {results : List (Option Identified)}

/-! ### Any order -/

/-- Identifies the locator at a place of the list, and puts the result at this place. -/
def surveyAt (opener : Opener η) (locators : List Locator) (results : List (Option Identified))
    (place : Nat) : StateM (World η) (List (Option Identified)) :=
  match locators[place]? with
  | none => pure results
  | some locator => do
      let result ← opener.surveyOne locator (pure ())
      pure (results.set place (some result))

/-- Identifies the locators in the order that a list of places gives. -/
def surveyInOrder (opener : Opener η) (locators : List Locator) (order : List Nat) :
    StateM (World η) (List (Option Identified)) :=
  order.foldlM (opener.surveyAt locators) (List.replicate locators.length none)

theorem surveyAt_of_some {place : Nat} {locator : Locator}
    (h : locators[place]? = some locator) (results : List (Option Identified)) (world : World η) :
    opener.surveyAt locators results place world =
      let identified := opener.surveyOne locator (pure ()) world
      (results.set place (some identified.1), identified.2) := by
  rw [surveyAt, h]
  rfl

/-- The places from some place on, one after the other. -/
theorem foldlM_surveyAt_range' (opener : Opener η) (front locators : List Locator)
    (known : List (Option Identified)) (hknown : known.length = front.length) (world : World η) :
    let surveyed := opener.surveyFrom (fun _ _ => pure ()) front.length locators world
    (List.range' front.length locators.length).foldlM (opener.surveyAt (front ++ locators))
        (known ++ List.replicate locators.length none) world =
      (known ++ surveyed.1.map some, surveyed.2) := by
  induction locators generalizing front known world with
  | nil => rfl
  | cons locator locators ih =>
    have hplace : (front ++ locator :: locators)[front.length]? = some locator := by
      simp
    have hset (result : Identified) :
        (known ++ List.replicate (locators.length + 1) none).set front.length (some result) =
          known ++ [some result] ++ List.replicate locators.length none := by
      rw [← hknown, List.replicate_succ, List.set_append_right _ _ (Nat.le_refl _), Nat.sub_self,
        List.set_cons_zero, List.append_assoc, List.singleton_append]
    dsimp only
    rw [List.length_cons, List.range'_succ, List.foldlM_cons, run_bind, surveyAt_of_some hplace]
    dsimp only
    rw [hset]
    have hrest := ih (front ++ [locator]) (known ++ [some (opener.surveyOne locator (pure ()) world).1])
      (by simp [hknown]) (opener.surveyOne locator (pure ()) world).2
    rw [List.length_append, List.length_singleton, List.append_assoc, List.singleton_append] at hrest
    dsimp only at hrest
    rw [hrest]
    simp [surveyFrom]

/-- In the order of the list this is what identifies all locators. -/
theorem surveyInOrder_range (opener : Opener η) (locators : List Locator) (world : World η) :
    opener.surveyInOrder locators (List.range locators.length) world =
      ((opener.survey locators world).1.map some, (opener.survey locators world).2) := by
  rw [surveyInOrder, List.range_eq_range']
  exact opener.foldlM_surveyAt_range' [] locators [] rfl world

/-- One step puts the result where it belongs. -/
theorem exists_yields_surveyAt
    (hverdict : ∀ locator ∈ locators, Yields rest (opener.surveyOne locator (pure ()))
      (verdict locator))
    (hlength : results.length = locators.length) (place : Nat) :
    ∃ results', Yields rest (opener.surveyAt locators results place) results' ∧
      results'.length = locators.length ∧
        ∀ i : Nat, results'[i]? =
          if i = place then locators[i]?.map fun locator => some (verdict locator)
          else results[i]? := by
  unfold surveyAt
  cases hlocator : locators[place]? with
  | none =>
    refine ⟨results, .pure _, hlength, fun i => ?_⟩
    by_cases hsame : i = place
    · subst hsame
      rw [if_pos rfl, hlocator, Option.map_none, List.getElem?_eq_none_iff, hlength]
      exact List.getElem?_eq_none_iff.mp hlocator
    · rw [if_neg hsame]
  | some locator =>
    refine ⟨results.set place (some (verdict locator)),
      (hverdict locator (List.mem_of_getElem? hlocator)).bind (.pure _), ?_, fun i => ?_⟩
    · rw [List.length_set, hlength]
    · by_cases hsame : i = place
      · subst hsame
        have hinside : i < results.length := by
          rw [hlength]
          exact (List.getElem?_eq_some_iff.mp hlocator).1
        rw [if_pos rfl, hlocator, List.getElem?_set_self hinside]
        rfl
      · rw [if_neg hsame, List.getElem?_set_ne (Ne.symm hsame)]

/-- So do all steps of an order, however often each place occurs in it. -/
theorem exists_yields_foldlM
    (hverdict : ∀ locator ∈ locators, Yields rest (opener.surveyOne locator (pure ()))
      (verdict locator))
    (order : List Nat) (hlength : results.length = locators.length) :
    ∃ results', Yields rest (order.foldlM (opener.surveyAt locators) results) results' ∧
      ∀ i : Nat, results'[i]? =
        if i ∈ order then locators[i]?.map fun locator => some (verdict locator)
        else results[i]? := by
  induction order generalizing results with
  | nil => exact ⟨results, .pure _, fun i => by simp⟩
  | cons place order ih =>
    obtain ⟨first, hfirst, hfirstLength, hput⟩ := exists_yields_surveyAt hverdict hlength place
    obtain ⟨last, hlast, hkept⟩ := ih hfirstLength
    refine ⟨last, ?_, fun i => ?_⟩
    · rw [List.foldlM_cons]
      exact hfirst.bind hlast
    · rw [hkept, hput]
      -- A place that occurs again later gets the same result once more.
      by_cases hlater : i ∈ order
      · rw [if_pos hlater, if_pos (List.mem_cons_of_mem _ hlater)]
      · rw [if_neg hlater]
        by_cases hsame : i = place
        · rw [if_pos hsame, if_pos (hsame ▸ List.mem_cons_self)]
        · rw [if_neg hsame, if_neg]
          exact fun hmem => (List.mem_cons.mp hmem).elim hsame hlater

/-- **If what each locator is identified as can be foreseen, so can all results**, in any order. -/
theorem yields_surveyInOrder
    (hverdict : ∀ locator ∈ locators, Yields rest (opener.surveyOne locator (pure ()))
      (verdict locator))
    {order : List Nat} (horder : order.Perm (List.range locators.length)) :
    Yields rest (opener.surveyInOrder locators order)
      (locators.map fun locator => some (verdict locator)) := by
  obtain ⟨results, hyields, hresults⟩ := exists_yields_foldlM hverdict order
    (List.length_replicate (n := locators.length) (a := none))
  suffices hall : results = locators.map fun locator => some (verdict locator) by
    rw [← hall]
    exact hyields
  apply List.ext_getElem?
  intro i
  rw [hresults, List.getElem?_map]
  by_cases hinside : i < locators.length
  · rw [if_pos (horder.mem_iff.mpr (List.mem_range.mpr hinside))]
  · have hout : locators[i]? = none := List.getElem?_eq_none_iff.mpr (Nat.not_lt.mp hinside)
    rw [if_neg fun hmem => hinside (List.mem_range.mp (horder.mem_iff.mp hmem)), hout]
    simp [hinside]

end Opener

/-! ### What earlier runs leave -/

namespace EntryUsers

variable {directory : String} {resources : Resources} {J : η → Prop} {start : World η}
  {steps : List (EntryStep η)}

/-- A run of layers that show nothing wrong, and of which each is compatible with the store that it
may find open. -/
structure Careful (directory : String) (resources : Resources) (J : η → Prop) (start : World η)
    (steps : List (EntryStep η)) : Prop where
  host : J start.host
  truthful : ∀ next ∈ steps, Truthful resources.Has resources.contentOf J next
  compatible : ∀ before next, before ++ [next] <+: steps →
    Compatible directory resources.contentOf (run directory { world := start } before) next

/-- It keeps a cache directory in custody that nobody used before. -/
theorem Careful.custody (h : Careful directory resources J start steps)
    (hkept : KeepsTraces directory resources.Has resources.contentOf start.storage)
    (hclosed : ∀ path, resources.Has path →
      start.storage.store? (CacheEntry.key { directory, path }) = none) :
    Custody (KeepsTraces directory resources.Has resources.contentOf) directory
      (Measured resources.Has resources.contentOf)
      (Ledger.Genuine fun path _ => resources.contentOf path) J
      (run directory { world := start } steps) := by
  apply (custody_nobody h.host hkept hclosed).run (upkeep_keepsTraces _ _ _)
  rintro before next after rfl
  refine admitted_of_compatible (h.truthful next (by simp)) (h.compatible before next ?_)
  exact ⟨after, by simp⟩

end EntryUsers

/-- What earlier runs over some resources leave in a cache directory.  A run is any careful use of
disk cached layers until all of them were closed, or until the program ended with no block left to be
listed; or it is the identification of many locators in some order. -/
inductive Storage.LeftBy (directory : String) (resources : Resources) : Storage → Prop
  | nothing {storage} (h : ∀ path, resources.Has path → storage.Untouched { directory, path }) :
      LeftBy directory resources storage
  | closed {η : Type} {J : η → Prop} {start : World η} {steps : List (EntryStep η)}
      (before : LeftBy directory resources start.storage)
      (hcareful : EntryUsers.Careful directory resources J start steps)
      (hclosed : (EntryUsers.run directory { world := start } steps).layers = []) :
      LeftBy directory resources (EntryUsers.run directory { world := start } steps).world.storage
  | ended {η : Type} {J : η → Prop} {start : World η} {steps : List (EntryStep η)}
      (before : LeftBy directory resources start.storage)
      (hcareful : EntryUsers.Careful directory resources J start steps)
      (hsaved : ∀ path, resources.Has path → ∀ store,
        (EntryUsers.run directory { world := start } steps).world.storage.store?
          (CacheEntry.key { directory, path }) = some store → store.unsaved = false) :
      LeftBy directory resources
        { (EntryUsers.run directory { world := start } steps).world.storage with stores := [] }
  | survey {η : Type} {opener : Opener η} {J : η → Prop} {start : World η}
      {locators : List Locator} {order : List Nat}
      (before : LeftBy directory resources start.storage) (hhost : J start.host)
      (hdirectory : opener.config.effectiveCacheDirectory = some directory)
      (hreliable : opener.Reliable resources J start.storage.files locators) :
      LeftBy directory resources (opener.surveyInOrder locators order start).2.storage

namespace Storage.LeftBy

open EntryUsers

variable {directory : String} {resources : Resources} {storage : Storage}

/-- **Whatever earlier runs have left, the cache directory is in order.** -/
theorem inOrder (h : LeftBy directory resources storage) :
    storage.InOrder directory resources storage.files := by
  suffices htraces : KeepsTraces directory resources.Has resources.contentOf storage ∧
      ∀ path, resources.Has path →
        storage.store? (CacheEntry.key { directory, path }) = none from
    inOrder_of_keepsTraces htraces.1 htraces.2
  induction h with
  | nothing h => exact ⟨keepsTraces_of_untouched h, fun path hpath => (h path hpath).closed⟩
  | closed _ hcareful hclosed ih =>
    have hcustody := hcareful.custody ih.1 ih.2
    exact ⟨hcustody.kept, fun path hpath => hcustody.closed hclosed ⟨path, _, ⟨hpath, rfl⟩, rfl⟩⟩
  | ended _ hcareful hsaved ih =>
    exact ⟨keepsTraces_forget (hcareful.custody ih.1 ih.2).kept hsaved, fun _ _ => rfl⟩
  | @survey η opener J start locators order before hhost hdirectory hreliable ih =>
    have hrest : start.AtRest opener.config resources J start.storage.files := by
      refine ⟨hhost, fun _ => rfl, fun other hother => ?_⟩
      cases hdirectory.symm.trans hother
      exact inOrder_of_keepsTraces ih.1 ih.2
    obtain ⟨results, hyields, -⟩ := Opener.exists_yields_foldlM
      (fun _ hmem => hreliable.yields_surveyOne hrest hmem) order List.length_replicate
    have horder := (hyields start hrest).2.cached directory hdirectory
    exact ⟨horder.kept.1, fun path hpath => Option.map_eq_none_iff.mp (horder.closed path hpath)⟩

end Storage.LeftBy

namespace Opener

variable {opener : Opener η} {resources : Resources} {J : η → Prop} {world : World η}
  {locators : List Locator} {order : List Nat}

/-- **What many locators are identified as does not depend on the order.**  Each of them is identified
as it is alone, whatever the others are and in whatever order they come, and its result has its place
in the list. -/
theorem surveyInOrder_eq_alone (hhost : J world.host)
    (hreliable : opener.Reliable resources J world.storage.files locators)
    (hstorage : ∀ directory, opener.config.effectiveCacheDirectory = some directory →
      world.storage.LeftBy directory resources)
    (horder : order.Perm (List.range locators.length)) :
    (opener.surveyInOrder locators order world).1 =
        locators.map (fun locator => some (opener.surveyOne locator (pure ()) world).1) ∧
      (opener.survey locators world).1 =
        locators.map fun locator => (opener.surveyOne locator (pure ()) world).1 := by
  have hrest : world.AtRest opener.config resources J world.storage.files :=
    ⟨hhost, fun _ => rfl, fun directory hon => (hstorage directory hon).inOrder⟩
  have hresults {order : List Nat} (horder : order.Perm (List.range locators.length)) :=
    (yields_surveyInOrder (fun _ hmem => hreliable.yields_surveyOne hrest hmem) horder world hrest).1
  refine ⟨hresults horder, ?_⟩
  -- To identify the locators in the order of the list is one of the orders.
  have hlist := hresults (.refl _)
  rw [surveyInOrder_range, ← Function.comp_def some, ← List.map_map] at hlist
  exact (List.map_inj_right fun _ _ => Option.some.inj).mp hlist

/-! ### Two addresses of one digest -/

/-- Archives of different kinds at two addresses that have one entry. -/
def rivalArchives : Resources := fun url =>
  if url = EntryUsers.rivals.1 then some [0x50, 0x4b, 0x03, 0x04]
  else if url = EntryUsers.rivals.2 then some [0x52, 0x61, 0x72, 0x21]
  else none

/-- Opens them with a disk cache, and the documents of a host that are all executables. -/
def rivalOpener : Opener Unit where
  factories := ({} : Factories Unit).register "doc://" fun locator =>
    pure (.supplied (.ofContent locator [0x7f, 0x45, 0x4c, 0x46]))
  config := { Config.standard "" with cacheDirectory := some "cache" }
  transport := some (.ofResources rivalArchives)

theorem eq_rival {path : String} (h : rivalArchives.Has path) :
    path = EntryUsers.rivals.1 ∨ path = EntryUsers.rivals.2 := by
  unfold Resources.Has rivalArchives at h
  split at h
  · exact .inl ‹_›
  · split at h
    · exact .inr ‹_›
    · cases h

/-- A world with one file, in which nothing has been kept yet. -/
def oneFile : World Unit where
  storage := { files := { entries := [(["a.7z"], .file 0)], contents := [.ofBytes [0, 0, 0, 0]] } }
  host := ()

theorem untouched_oneFile (path : String) (hpath : rivalArchives.Has path) :
    oneFile.storage.Untouched { directory := "cache", path } := by
  rcases eq_rival hpath with rfl | rfl
  · exact ⟨rfl, by decide +kernel, by decide +kernel⟩
  · exact ⟨rfl, by decide +kernel, by decide +kernel⟩

/-- The only file is not in the cache. -/
theorem spares_oneFile (path : String) (hpath : path ∈ Identify.examined (.ofPath "a.7z")) :
    rivalOpener.config.Spares rivalArchives oneFile.storage.files path := by
  intro directory hdirectory
  obtain rfl : "cache" = directory := Option.some.inj hdirectory
  have hnew := untouched_oneFile
  rcases List.mem_cons.mp hpath with rfl | hentry
  · refine ⟨by decide +kernel, Storage.Untouched.leadsPast hnew (by decide +kernel) ?_⟩
    intro id hid
    have hfile : (oneFile.storage.files.makeDirectories "cache").stat "a.7z" = .ok (.file 0) := by
      decide +kernel
    cases hfile.symm.trans hid
    decide +kernel
  · -- A file has no entries.
    simp only [Identify.entryNames, List.map_cons, List.map_nil, List.mem_cons, List.not_mem_nil,
      or_false] at hentry
    have hnothing {path : String} {tree : FileTree}
        (hlocate : tree.locate path = .error .notADirectory)
        (hstat : tree.stat path = .error .notADirectory) :
        tree.LeadsPast (CacheEntry.Reserved tree "cache" rivalArchives.Has) path :=
      .of_error hlocate hstat
    rcases hentry with rfl | rfl | rfl
    · exact ⟨by decide +kernel, hnothing (by decide +kernel) (by decide +kernel)⟩
    · exact ⟨by decide +kernel, hnothing (by decide +kernel) (by decide +kernel)⟩
    · exact ⟨by decide +kernel, hnothing (by decide +kernel) (by decide +kernel)⟩

theorem reliable_rivalOpener {base : FileTree} {locators : List Locator}
    (hfiles : ∀ locator ∈ locators, locator.isNetwork = false →
      rivalOpener.factories.find? locator = none →
        ∀ path ∈ Identify.examined locator, rivalOpener.config.Spares rivalArchives base path) :
    rivalOpener.Reliable rivalArchives (fun _ => True) base locators where
  usable := ⟨by decide, by decide, by decide⟩
  delivers transport htransport := by
    cases htransport
    exact Transport.delivers_ofResources rivalArchives
  factories locator _ _ beginning factory hfind := by
    cases List.mem_singleton.mp (List.mem_of_find?_eq_some hfind)
    exact ⟨Unit, .ofContent locator _, (), Layer.actsAs_supplied (Source.shows_ofContent _ _ _)⟩
  files := hfiles

/-- The rivals are identified one after another, one of them twice, and other locators in between. -/
theorem surveyInOrder_rivals :
    let locators : List Locator := [.ofPath EntryUsers.rivals.1, .ofPath "a.7z",
      .ofPath EntryUsers.rivals.2, { scheme := .custom "doc", path := "doc://tool.prx" },
      .ofPath EntryUsers.rivals.1, .ofPath "http://game/none"]
    (rivalOpener.surveyInOrder locators [4, 2, 0, 5, 1, 3] oneFile).1 =
        [some (.ok (.archive .zip)), some (.ok (.archive .sevenZip)), some (.ok (.archive .rar)),
          some (.ok .executable), some (.ok (.archive .zip)),
          some (.error (.notFound "http://game/none"))] := by
  intro locators
  have hreliable : rivalOpener.Reliable rivalArchives (fun _ => True) oneFile.storage.files
      locators := by
    apply reliable_rivalOpener
    intro locator hmem hlocal hfind
    have hkinds : ∀ locator ∈ locators, locator.isNetwork = true ∨
        (rivalOpener.factories.find? locator).isSome = true ∨ locator = .ofPath "a.7z" := by
      decide +kernel
    rcases hkinds locator hmem with hnetwork | hsome | rfl
    · cases hlocal.symm.trans hnetwork
    · rw [hfind] at hsome
      cases hsome
    · exact spares_oneFile
  have hstorage (directory : String)
      (hdirectory : rivalOpener.config.effectiveCacheDirectory = some directory) :
      oneFile.storage.LeftBy directory rivalArchives := by
    obtain rfl : "cache" = directory := Option.some.inj hdirectory
    exact .nothing untouched_oneFile
  have horder : [4, 2, 0, 5, 1, 3].Perm (List.range locators.length) := by decide
  rw [(surveyInOrder_eq_alone trivial hreliable hstorage horder).1]
  decide +kernel

/-- A layer over one of the archives. -/
def archiveLayer (path : String) : Layer Unit :=
  .supplied (.ofContent (.ofPath path) (rivalArchives.contentOf path))

/-- A run in which layers over both archives were open at the same time.  The first bytes of the
second one were stored for the first one. -/
def rivalRun : List (EntryStep Unit) :=
  [.attach 4 (archiveLayer EntryUsers.rivals.1), .attach 4 (archiveLayer EntryUsers.rivals.2),
    .ask 1 (.readAt 0 4), .close 1, .close 0]

theorem truthful_rivalRun : ∀ next ∈ rivalRun,
    EntryUsers.Truthful rivalArchives.Has rivalArchives.contentOf (fun _ => True) next := by
  have hlayer (path : String) (hpath : rivalArchives.Has path)
      (hlength : (rivalArchives.contentOf path).length = 4) :
      EntryUsers.Truthful rivalArchives.Has rivalArchives.contentOf (fun _ => True)
        (.attach 4 (archiveLayer path)) :=
    ⟨hpath, hlength, Layer.trusted_supplied (Source.shows_ofContent _ _ 0)⟩
  intro next hnext
  simp only [rivalRun, List.mem_cons, List.not_mem_nil, or_false] at hnext
  rcases hnext with rfl | rfl | rfl | rfl | rfl
  · exact hlayer _ (by decide +kernel) (by decide +kernel)
  · exact hlayer _ (by decide +kernel) (by decide +kernel)
  · trivial
  · trivial
  · trivial

/-- After a run in which layers have shared a store the order matters: alone, the first archive is
taken for one of the kind of the second, but it is not once the second one has been identified. -/
theorem surveyInOrder_misled :
    let locators : List Locator := [.ofPath EntryUsers.rivals.2, .ofPath EntryUsers.rivals.1]
    let users := EntryUsers.run "cache" { world := { host := () } } rivalRun
    (∀ next ∈ rivalRun, EntryUsers.Truthful rivalArchives.Has rivalArchives.contentOf
        (fun _ => True) next) ∧ users.layers = [] ∧
      rivalOpener.Reliable rivalArchives (fun _ => True) users.world.storage.files locators ∧
        (rivalOpener.surveyInOrder locators [1, 0] users.world).1 =
            [some (.ok (.archive .rar)), some (.ok (.archive .rar))] ∧
          (rivalOpener.surveyInOrder locators [0, 1] users.world).1 =
            [some (.ok (.archive .rar)), some (.ok (.archive .zip))] ∧
          (rivalOpener.surveyOne (.ofPath EntryUsers.rivals.1) (pure ()) users.world).1 =
            .ok (.archive .rar) := by
  intro locators users
  refine ⟨truthful_rivalRun, ?_, ?_, ?_⟩
  · exact List.eq_nil_of_length_eq_zero (by decide +kernel)
  · apply reliable_rivalOpener
    intro locator hmem hlocal
    have hnetwork : ∀ locator ∈ locators, locator.isNetwork = true := by decide
    cases hlocal.symm.trans (hnetwork locator hmem)
  · decide +kernel

end Opener

end PspBoot
