import PspBoot.Image.Survey
import PspBoot.Proofs.Chain.Succession
import PspBoot.Proofs.Image.Identify

/-!
# What a locator is identified as

A locator is opened in a world at rest, identified, and closed again.  What it is identified as can be
foreseen, whatever has been opened before (`Opener.Reliable.exists_yields`), and the world is at rest
again:

* the address of a resource is identified as the plain source of the content of the resource;
* nothing is found at any other address;
* a locator of a factory is identified as the source that the layers of the factory act as
  (`Layer.ActsAs`);
* a local path is identified as what was there in the beginning, if the cache cannot be seen through
  it (`Config.Spares`).
-/

namespace PspBoot

/-! ### The names that are looked for -/

/-- The source, with the entries of some names only. -/
def Source.limited {σ : Type} (names : List String) (source : Source σ) : Source σ :=
  { source with hasEntry := fun name => if name ∈ names then source.hasEntry name else pure false }

theorem Source.hasEntry_limited {σ : Type} {names : List String} (source : Source σ) {name : String}
    (hname : name ∈ names) : (source.limited names).hasEntry name = source.hasEntry name :=
  if_pos hname

theorem Source.hasEntry_limited_of_not_mem {σ : Type} {names : List String} (source : Source σ)
    {name : String} (hname : name ∉ names) : (source.limited names).hasEntry name = pure false :=
  if_neg hname

namespace Identify

variable {σ : Type}

/-- The names that identification looks for in a directory. -/
def entryNames : List String := [Locator.ebootName, "PSP_GAME", "PARAM.SFO"]

/-- What identification looks at through a local path. -/
def examined (locator : Locator) : List String :=
  locator.path :: entryNames.map (FilePath.join locator.path)

theorem directory_limited (source : Source σ) :
    directory (source.limited entryNames) = directory source := by
  have hlocator : (source.limited entryNames).locator = source.locator := rfl
  rw [directory, directory, hlocator, source.hasEntry_limited (by simp [entryNames]),
    source.hasEntry_limited (by simp [entryNames]), source.hasEntry_limited (by simp [entryNames])]

/-- Identification looks for no other names. -/
theorem identify_limited (source : Source σ) :
    identify (source.limited entryNames) = identify source := by
  have hcontent : byContent (source.limited entryNames) = byContent source := by
    rw [byContent, byContent, directory_limited]
    rfl
  rw [identify, identify, hcontent]
  rfl

/-- A source that is not there is not examined. -/
theorem identify_of_absent {source : Source σ} {s : σ} (h : (source.isPresent s).1 = false) :
    identify source s =
      if source.locator.isEmpty then (.error (.invalidPath source.locator.path), s)
      else (.error (.notFound source.locator.path), (source.isPresent s).2) := by
  rw [identify, run_ite]
  split
  · rfl
  · rw [run_bind, h]
    rfl

end Identify

variable {η τ : Type}

/-! ### Layers that act as a source -/

/-- In every world with `rest` the layer that is made answers as a source does from the state `t` on,
and when it is closed the world has `rest` again. -/
def Layer.ActsAs (rest : World η → Prop) (make : StateM (World η) (Layer η)) (source : Source τ)
    (t : τ) : Prop :=
  ∀ world, rest world →
    ∃ R : (make world).1.chain.State × World η → τ → Prop,
      Source.Alike R (make world).1.chain.source source ∧
        R ((make world).1.state, (make world).2) t ∧
          ∀ s t, R s t → rest ((make world).1.close s.2).2

/-- Layers over a source of the host's own that shows a content act as the plain source of it. -/
theorem Layer.actsAs_supplied {config : Config} {resources : Resources} {J : η → Prop}
    {base : FileTree} {source : Source η} {content : Bytes}
    (h : source.Shows content content.length J fun _ => False) :
    Layer.ActsAs (World.AtRest config resources J base) (pure (.supplied source))
      (Source.ofContent source.locator content) () := by
  intro world hworld
  have hshows := Chain.showsAside_supplied h world.storage
  exact ⟨_, hshows.alike (Nat.le_refl _), ⟨⟨trivial, hworld.host⟩, rfl⟩,
    fun s _ hs => hworld.of_host hs.1.2 hs.2⟩

/-- Through a path the same is seen whatever is done in the cache. -/
def Config.Spares (config : Config) (resources : Resources) (base : FileTree) (path : String) :
    Prop :=
  ∀ directory, config.effectiveCacheDirectory = some directory →
    let made := base.makeDirectories directory
    made.pathExists path = base.pathExists path ∧
      made.LeadsPast (CacheEntry.Reserved made directory resources.Has) path

/-- A local path leads to the same as in the beginning. -/
theorem World.AtRest.sameAt {config : Config} {resources : Resources} {J : η → Prop}
    {base : FileTree} {world : World η} (h : world.AtRest config resources J base) {path : String}
    (hspares : config.Spares resources base path) : base.SameAt world.storage.files path := by
  cases hdirectory : config.effectiveCacheDirectory with
  | none =>
    rw [h.uncached hdirectory]
    exact .refl base path
  | some directory =>
    obtain ⟨hmade, hpast⟩ := hspares directory hdirectory
    exact (h.cached directory hdirectory).kept.2.sameAt hmade hpast

namespace Opener

variable {opener : Opener η} {transport : Transport η} {resources : Resources} {J : η → Prop}
  {base : FileTree} {locator : Locator} {content : Bytes} {rest : World η → Prop}

/-- A locator is identified as the source that its layers act as. -/
theorem yields_of_actsAs {source : Source τ} {t : τ}
    (h : Layer.ActsAs rest (opener.openLayer locator) source t) :
    Yields rest (opener.surveyOne locator (pure ())) (identify source t).1 := by
  intro world hworld
  obtain ⟨R, halike, hstart, hclose⟩ := h world hworld
  obtain ⟨hresult, hend⟩ := halike.alike_identify _ _ hstart
  exact ⟨hresult, hclose _ _ hend⟩

/-! ### Addresses -/

/-- A chain for a resource acts as the plain source of its content. -/
theorem actsAs_present (hnetwork : locator.isNetwork = true) (husable : opener.config.Usable)
    (htransport : opener.transport = some transport) (hdelivers : transport.Delivers resources J)
    (hcontent : resources locator.path = some content) :
    Layer.ActsAs (World.AtRest opener.config resources J base) (opener.openLayer locator)
      (Source.ofContent locator content) () := by
  intro world hworld
  obtain ⟨chain, state, world', V, hopen, hlocator, hshows, hstart, hclose⟩ :=
    opens_present hnetwork husable htransport hdelivers hcontent hworld
  rw [hopen]
  have hmirrored := Relays.shows_mirrored opener.config hshows (Nat.min_le_right _ _)
  have halike := hmirrored.alike (Nat.le_refl _)
  rw [show (Chain.memoryCached opener.config.memory chain).source.locator = locator from hlocator]
    at halike
  exact ⟨_, halike, Relays.mirrored_initial opener.config content False hstart,
    fun s _ hs => hclose _ hs.inner⟩

/-- Nothing is found where no resource is. -/
theorem yields_absent (hnetwork : locator.isNetwork = true)
    (hmissing : Missing opener.transport J locator.path) :
    Yields (World.AtRest opener.config resources J base) (opener.surveyOne locator (pure ()))
      (.error (if locator.isEmpty then .invalidPath locator.path else .notFound locator.path)) := by
  intro world hworld
  obtain ⟨chain, state, world', V, hopen, hlocator, hpresent, hstart, hclose⟩ :=
    opens_absent hnetwork hmissing hworld
  let layer : Layer η := ⟨.memoryCached opener.config.memory chain, (({} : MemoryCache), state)⟩
  have hno := hpresent _ hstart
  have habsent : (layer.chain.source.isPresent (layer.state, world')).1 = false := hno.post
  have hidentify := Identify.identify_of_absent habsent
  rw [show layer.chain.source.locator = locator from hlocator] at hidentify
  have hrun : opener.surveyOne locator (pure ()) world =
      let identified := identify layer.chain.source (layer.state, world')
      (identified.1, (chain.close identified.2.2).2) := by
    rw [surveyOne, run_bind, hopen]
    rfl
  rw [hrun, hidentify]
  -- An empty path is refused before the source is asked for anything.
  cases locator.isEmpty with
  | true => exact ⟨rfl, hclose _ hstart⟩
  | false => exact ⟨rfl, hclose _ hno.valid⟩

/-! ### Local paths -/

/-- Two local sources that were opened through one path, in trees where the same is found through it,
are alike as far as they look for entries through which the same is found. -/
theorem alike_localFile {world : World η} {names : List String}
    (hpath : base.SameAt world.storage.files locator.path)
    (hentries : ∀ name ∈ names,
      base.SameAt world.storage.files (FilePath.join locator.path name)) :
    Source.Alike (fun s t => s.2 = world ∧ t = base)
      ((Chain.localFile locator (LocalFile.look world.storage.files locator.path) : Chain η).source.limited
        names)
      ((Source.localFile locator (LocalFile.look base locator.path)).limited names) := by
  rw [hpath.look_eq]
  constructor
  case locator_eq => rfl
  case isPresent => exact fun s t h => ⟨rfl, h⟩
  case isDirectory => exact fun s t h => ⟨rfl, h⟩
  case size => exact fun s t h => ⟨rfl, h⟩
  case readAt =>
    rintro offset len s t ⟨rfl, rfl⟩
    exact ⟨hpath.readAt_look_eq offset len, rfl, rfl⟩
  case hasEntry =>
    intro name
    by_cases hname : name ∈ names
    · have hexists := (hentries name hname).pathExists_eq
      rw [Source.hasEntry_limited _ hname, Source.hasEntry_limited _ hname]
      rintro s t ⟨rfl, rfl⟩
      exact ⟨congrArg (_ && ·) hexists, rfl, rfl⟩
    · rw [Source.hasEntry_limited_of_not_mem _ hname, Source.hasEntry_limited_of_not_mem _ hname]
      exact .pure false

/-- A local path is identified as what was there in the beginning. -/
theorem yields_file (hlocal : locator.isNetwork = false)
    (hfind : opener.factories.find? locator = none)
    (hspares : ∀ path ∈ Identify.examined locator, opener.config.Spares resources base path) :
    Yields (World.AtRest opener.config resources J base) (opener.surveyOne locator (pure ()))
      (identify (Source.localFile locator (LocalFile.look base locator.path)) base).1 := by
  intro world hworld
  have hsame (path : String) (hpath : path ∈ Identify.examined locator) :
      base.SameAt world.storage.files path := hworld.sameAt (hspares path hpath)
  have hentries : ∀ name ∈ Identify.entryNames,
      base.SameAt world.storage.files (FilePath.join locator.path name) :=
    fun name hname => hsame _ (List.mem_cons_of_mem _ (List.mem_map_of_mem hname))
  -- Other entries may be different, but they are not looked for.
  have halike := (alike_localFile (hsame _ List.mem_cons_self) hentries).alike_identify
    ((), world) base ⟨rfl, rfl⟩
  rw [Identify.identify_limited, Identify.identify_limited] at halike
  obtain ⟨hresult, hend, -⟩ := halike
  have hopen : opener.openLayer locator world =
      (⟨.localFile locator (LocalFile.look world.storage.files locator.path), ()⟩, world) := by
    rw [openLayer, hlocal, hfind]
    rfl
  rw [surveyOne, run_bind, hopen]
  exact ⟨hresult, hend.symm ▸ hworld⟩

/-! ### Everything that can be foreseen -/

/-- What has to be known of an opener and of the world outside.  The transport never fails and
delivers some resources as a whole; the layers that factories make depend on nothing but the locator;
and the cache cannot be seen through local paths. -/
structure Reliable (opener : Opener η) (resources : Resources) (J : η → Prop) (base : FileTree)
    (locators : List Locator) : Prop where
  usable : opener.config.Usable
  delivers : ∀ transport, opener.transport = some transport → transport.Delivers resources J
  factories : ∀ locator ∈ locators, locator.isNetwork = false → ∀ beginning factory,
    opener.factories.find? locator = some (beginning, factory) →
      ∃ (τ : Type) (source : Source τ) (t : τ),
        Layer.ActsAs (World.AtRest opener.config resources J base) (factory locator) source t
  files : ∀ locator ∈ locators, locator.isNetwork = false →
    opener.factories.find? locator = none →
      ∀ path ∈ Identify.examined locator, opener.config.Spares resources base path

/-- **What a locator is identified as does not depend on what has happened before.** -/
theorem Reliable.exists_yields {locators : List Locator}
    (h : opener.Reliable resources J base locators) (hmem : locator ∈ locators) :
    ∃ verdict, Yields (World.AtRest opener.config resources J base)
      (opener.surveyOne locator (pure ())) verdict := by
  cases hnetwork : locator.isNetwork with
  | true =>
    cases htransport : opener.transport with
    | none => exact ⟨_, yields_absent hnetwork (by rw [htransport]; exact nofun)⟩
    | some transport =>
      have hdelivers := h.delivers transport htransport
      cases hcontent : resources locator.path with
      | none =>
        refine ⟨_, yields_absent hnetwork fun other hother => ?_⟩
        cases htransport.symm.trans hother
        have htold := hdelivers.lengthOf locator.path
        rw [hcontent] at htold
        exact htold
      | some content =>
        exact ⟨_, yields_of_actsAs (actsAs_present hnetwork h.usable htransport hdelivers hcontent)⟩
  | false =>
    cases hfind : opener.factories.find? locator with
    | none => exact ⟨_, yields_file hnetwork hfind (h.files locator hmem hnetwork hfind)⟩
    | some found =>
      obtain ⟨beginning, factory⟩ := found
      obtain ⟨τ, source, t, hacts⟩ := h.factories locator hmem hnetwork beginning factory hfind
      have hopen : opener.openLayer locator = factory locator := by
        rw [openLayer, hnetwork, hfind]
        rfl
      rw [← hopen] at hacts
      exact ⟨_, yields_of_actsAs hacts⟩

/-- So it is identified in every world at rest as it is in one of them. -/
theorem Reliable.yields_surveyOne {locators : List Locator} {world : World η}
    (h : opener.Reliable resources J base locators)
    (hworld : world.AtRest opener.config resources J base) (hmem : locator ∈ locators) :
    Yields (World.AtRest opener.config resources J base) (opener.surveyOne locator (pure ()))
      (opener.surveyOne locator (pure ()) world).1 := by
  obtain ⟨verdict, hyields⟩ := h.exists_yields hmem
  rw [(hyields world hworld).1]
  exact hyields

end Opener

end PspBoot
