import PspBoot.Proofs.BlockStore.Contained
import PspBoot.Proofs.Chain.Isolation
import PspBoot.Proofs.Chain.Network

/-!
# Network chains one after another

Network chains are opened, used and closed, one after another, over a transport that delivers some
resources (`Transport.Delivers`).  Between two of them the world is at rest (`World.AtRest`): no store
of theirs is open, the cache directory is as the users of stores keep it, and outside of it the files
are those of the beginning.

From a world at rest a chain for a resource shows the content of the resource (`opens_present`), and
one for anything else finds nothing there (`opens_absent`), whatever chains came before.  When it is
closed the world is at rest again.
-/

namespace PspBoot

open EntryUsers

/-! ### Resources -/

/-- The contents of the resources that there are, by their addresses. -/
abbrev Resources := String → Option Bytes

namespace Resources

/-- There is a resource at an address. -/
def Has (resources : Resources) (url : String) : Prop :=
  (resources url).isSome = true

instance (resources : Resources) (url : String) : Decidable (resources.Has url) :=
  inferInstanceAs (Decidable (_ = true))

/-- The content of a resource. -/
def contentOf (resources : Resources) (url : String) : Bytes :=
  (resources url).getD []

variable {resources : Resources} {url : String} {content : Bytes}

theorem has_of_eq (h : resources url = some content) : resources.Has url := by
  rw [Has, h]
  rfl

theorem contentOf_eq (h : resources url = some content) : resources.contentOf url = content := by
  rw [contentOf, h]
  rfl

end Resources

namespace Transport

variable {τ : Type} {transport : Transport τ} {resources : Resources} {J : τ → Prop} {url : String}
  {content : Bytes} {start host : τ} {k patience : Nat}

/-- In the states of the host with `J`, the transport never fails: it tells the length of each
resource, and delivers ranges as a whole. -/
structure Delivers (transport : Transport τ) (resources : Resources) (J : τ → Prop) : Prop where
  lengthOf : ∀ url, Yields J (transport.lengthOf url) (.ok ((resources url).map List.length))
  fetch : ∀ url content offset len, resources url = some content → len ≠ 0 →
    offset + len ≤ content.length →
      Yields J (transport.fetch url offset len) (.ok (Bytes.slice content offset len))

/-- The transport that delivers some resources and does nothing else. -/
def ofResources (resources : Resources) : Transport τ where
  lengthOf url := pure (.ok ((resources url).map List.length))
  fetch url offset len :=
    match resources url with
    | some content => pure (.ok (Bytes.slice content offset len))
    | none => pure (.error (.failed (url ++ " not found")))

theorem delivers_ofResources (resources : Resources) :
    (ofResources resources : Transport τ).Delivers resources fun _ => True where
  lengthOf _ := .pure _
  fetch url content offset len hcontent _ _ := by
    simp only [ofResources, hcontent]
    exact .pure _

namespace Delivers

/-- Requests for a resource leave the host as it has to be, and never fail. -/
theorem reaches (h : transport.Delivers resources J) (hcontent : resources url = some content)
    (hstart : J start) (hreach : transport.Reaches url content.length start k host) :
    k = 0 ∧ J host := by
  induction hreach with
  | start => exact ⟨rfl, hstart⟩
  | lengthTold _ _ ih => exact ⟨rfl, (h.lengthOf url _ ih.2).2⟩
  | lengthFailed _ hfailed ih => cases (h.lengthOf url _ ih.2).1.symm.trans hfailed
  | rangeSent _ hlen hinside _ ih =>
    exact ⟨rfl, (h.fetch url content _ _ hcontent hlen hinside _ ih.2).2⟩
  | rangeFailed _ hlen hinside hfailed ih =>
    cases (h.fetch url content _ _ hcontent hlen hinside _ ih.2).1.symm.trans hfailed

theorem serves (h : transport.Delivers resources J) (hcontent : resources url = some content)
    (hstart : J start) : transport.Serves url content content.length start where
  length k host answer hreach htold := by
    have hlength := (h.lengthOf url host (h.reaches hcontent hstart hreach).2).1
    rw [htold, hcontent] at hlength
    exact Except.ok.inj hlength
  range k host offset len data hreach hlen hinside hsent := by
    have hrange := (h.fetch url content offset len hcontent hlen hinside host
      (h.reaches hcontent hstart hreach).2).1
    rw [hsent] at hrange
    rw [Except.ok.inj hrange]
    exact .whole

theorem relents (h : transport.Delivers resources J) (hcontent : resources url = some content)
    (hstart : J start) (hpatience : patience ≠ 0) :
    transport.Relents url content patience start := by
  intro k host hreach
  rw [(h.reaches hcontent hstart hreach).1]
  exact Nat.pos_of_ne_zero hpatience

end Delivers

end Transport

/-! ### The cache directory between two chains -/

/-- The leases after a store has been opened for a chain, if one has. -/
def Lease.lend (lease : Lease) (key : Option FilePath.Key)
    (leases : FilePath.Key → Option Lease) (other : FilePath.Key) : Option Lease :=
  if key = some other then some lease else leases other

theorem Lease.lend_some (lease : Lease) (key : FilePath.Key)
    (leases : FilePath.Key → Option Lease) : lease.lend (some key) leases key = some lease :=
  if_pos rfl

namespace Storage

variable {directory path : String} {resources : Resources} {base : FileTree}
  {storage used : Storage} {key : Option FilePath.Key}

/-- What is kept of a cache directory while chains for the resources use it. -/
def KeptFor (directory : String) (resources : Resources) (base : FileTree) (storage : Storage) :
    Prop :=
  KeepsTraces directory resources.Has resources.contentOf storage ∧
    storage.Contained base directory resources.Has

/-- The cache directory is kept and no store of it is open. -/
structure InOrder (directory : String) (resources : Resources) (base : FileTree)
    (storage : Storage) : Prop where
  plain : ∀ place, CacheEntry.Reserved (base.makeDirectories directory) directory resources.Has place →
    (base.makeDirectories directory).node? place ≠ some .directory
  kept : KeptFor directory resources base storage
  closed : ∀ path, resources.Has path → storage.lease? (CacheEntry.key { directory, path }) = none

/-- The lease of the only user of a store. -/
def soleLease (resources : Resources) (path : String) : Lease where
  path := path
  size := (resources.contentOf path).length
  holders := 1

theorem soleLease_suits (resources : Resources) (path : String) :
    (soleLease resources path).Suits (Ledger.Genuine fun path _ => resources.contentOf path) path
      (resources.contentOf path).length :=
  ⟨rfl, fun _ _ hgood => hgood⟩

theorem inOrder_of_keepsTraces
    (h : KeepsTraces directory resources.Has resources.contentOf storage)
    (hclosed : ∀ path, resources.Has path →
      storage.store? (CacheEntry.key { directory, path }) = none) :
    storage.InOrder directory resources storage.files where
  plain := h.1.plain fun _ hpath => ⟨rfl, hpath⟩
  kept := ⟨h, .unused (.inl rfl) hclosed⟩
  closed path hpath := by
    rw [lease?, hclosed path hpath]
    rfl

namespace InOrder

theorem upkeep (h : storage.InOrder directory resources base) :
    Upkeep (KeptFor directory resources base) directory (Measured resources.Has resources.contentOf)
      (Ledger.Genuine fun path _ => resources.contentOf path) :=
  (upkeep_keepsTraces directory resources.Has resources.contentOf).and
    (upkeep_contained h.plain (fun _ _ hknown => hknown.1) _)

/-- A store that is opened has one user. -/
theorem openStore (h : storage.InOrder directory resources base) (hpath : resources.Has path) :
    let opened := storage.openStore { directory, path } (resources.contentOf path).length
    (opened.1 = none ∨ opened.1 = some (CacheEntry.key { directory, path })) ∧
      KeptFor directory resources base opened.2 ∧
        opened.2.lease? = (soleLease resources path).lend opened.1 storage.lease? := by
  intro opened
  have hkept : KeptFor directory resources base opened.2 := h.upkeep.openStore h.kept ⟨hpath, rfl⟩
  rcases storage.openStore_cases { directory, path } (resources.contentOf path).length with
    ⟨hnone, hleases⟩ | ⟨hsome, lease, hlease, hleases⟩
  · refine ⟨.inl hnone, hkept, ?_⟩
    rw [hleases, hnone]
    rfl
  · refine ⟨.inr hsome, hkept, ?_⟩
    obtain rfl : lease = soleLease resources path := by
      cases hlease with
      | new => rfl
      | shared hold => cases (h.closed path hpath).symm.trans hold
    rw [hsome]
    funext other
    rw [hleases, Lease.lend]
    by_cases hsame : other = CacheEntry.key { directory, path }
    · rw [if_pos hsame, if_pos (congrArg some hsame.symm)]
    · rw [if_neg hsame, if_neg fun heq => hsame (Option.some.inj heq).symm]

/-- So does one that is opened for a source. -/
theorem openStore_source {σ η : Type} {inner : Source (σ × World η)} {V : σ × η → Prop}
    {good : Nat → Bytes → Prop} {s : σ × World η}
    (h : s.2.storage.InOrder directory resources base) (hpath : resources.Has inner.locator.path)
    (hinner : DiskCache.Cacheable inner (resources.contentOf inner.locator.path).length good V)
    (hV : V (DiskCache.aside.get s)) :
    let opened := DiskCache.openStore directory inner s
    V (DiskCache.aside.get opened.2) ∧
      (opened.1 = none ∨
        opened.1 = some (CacheEntry.key { directory, path := inner.locator.path })) ∧
        KeptFor directory resources base opened.2.2.storage ∧
          opened.2.2.storage.lease? =
            (soleLease resources inner.locator.path).lend opened.1 s.2.storage.lease? := by
  intro opened
  obtain ⟨hvalid, hopened⟩ := hinner.openStore hV directory
  refine ⟨hvalid, ?_⟩
  rcases hopened with hrefused | hstored
  · have hnone : opened.1 = none := congrArg Prod.fst hrefused
    have hsame : opened.2.2.storage = s.2.storage := congrArg Prod.snd hrefused
    rw [hnone, hsame]
    exact ⟨.inl rfl, h.kept, rfl⟩
  · have hstore := h.openStore hpath
    dsimp only at hstore
    rw [← hstored] at hstore
    exact hstore

/-- Where no store has been opened, none is open later. -/
theorem unlent (h : storage.InOrder directory resources base)
    (hkept : KeptFor directory resources base used)
    (hleases : used.lease? = (soleLease resources path).lend none storage.lease?) :
    used.InOrder directory resources base where
  plain := h.plain
  kept := hkept
  closed other hother := by
    rw [hleases]
    exact h.closed other hother

/-- When the only user gives up the store, it is closed. -/
theorem release (h : storage.InOrder directory resources base) (hpath : resources.Has path)
    (hkept : KeptFor directory resources base used)
    (hleases : used.lease? = (soleLease resources path).lend
      (some (CacheEntry.key { directory, path })) storage.lease?) :
    (used.release (CacheEntry.key { directory, path })).InOrder directory resources base where
  plain := h.plain
  kept := h.upkeep.release hkept ⟨hpath, rfl⟩
  closed other hother := by
    rw [lease?_release, hleases, Lease.lend_some, Lease.lend]
    by_cases hsame : CacheEntry.key { directory, path := other } = CacheEntry.key { directory, path }
    · rw [if_pos hsame]
      rfl
    · rw [if_neg hsame, if_neg fun heq => hsame (Option.some.inj heq).symm]
      exact h.closed other hother

end InOrder

end Storage

/-! ### The world between two chains -/

variable {η : Type}

/-- The world before a chain is opened and after it has been closed. -/
structure World.AtRest (config : Config) (resources : Resources) (J : η → Prop) (base : FileTree)
    (world : World η) : Prop where
  host : J world.host
  uncached : config.effectiveCacheDirectory = none → world.storage.files = base
  cached : ∀ directory, config.effectiveCacheDirectory = some directory →
    world.storage.InOrder directory resources base

namespace World.AtRest

variable {config : Config} {resources : Resources} {J : η → Prop} {base : FileTree}
  {world world' : World η}

/-- Nothing but the host has changed. -/
theorem of_host (h : world.AtRest config resources J base) (hhost : J world'.host)
    (hstorage : world'.storage = world.storage) : world'.AtRest config resources J base where
  host := hhost
  uncached hoff := by
    rw [hstorage]
    exact h.uncached hoff
  cached directory hon := by
    rw [hstorage]
    exact h.cached directory hon

/-- The cache directory is in order after it has been used. -/
theorem of_cached {directory : String} (hon : config.effectiveCacheDirectory = some directory)
    (hhost : J world.host) (h : world.storage.InOrder directory resources base) :
    world.AtRest config resources J base where
  host := hhost
  uncached hoff := by
    rw [hon] at hoff
    cases hoff
  cached other hother := by
    rw [hon] at hother
    cases hother
    exact h

end World.AtRest

namespace Opener

variable {opener : Opener η} {transport : Transport η} {resources : Resources} {J : η → Prop}
  {base : FileTree} {locator : Locator} {content : Bytes} {world : World η}

/-- What is opened for a locator is a memory cache around another chain, which has a property in its
state, and which leaves the world at rest if it is closed in such a state. -/
def Opens (opener : Opener η) (resources : Resources) (J : η → Prop) (base : FileTree)
    (locator : Locator) (world : World η)
    (p : (chain : Chain η) → (chain.State × World η → Prop) → Prop) : Prop :=
  ∃ (chain : Chain η) (state : chain.State) (world' : World η)
    (V : chain.State × World η → Prop),
    opener.openLayer locator world =
        (⟨.memoryCached opener.config.memory chain, (({} : MemoryCache), state)⟩, world') ∧
      chain.source.locator = locator ∧ p chain V ∧ V (state, world') ∧
        ∀ s, V s → (chain.close s.2).2.AtRest opener.config resources J base

/-- The states of the requests of a chain are states in which the host is as it has to be. -/
theorem host_of_requested (hdelivers : transport.Delivers resources J)
    (hcontent : resources locator.path = some content) {start : η} (hstart : J start)
    {r : Remote × η} (hr : Requested transport locator content start r) : J r.2 := by
  obtain ⟨k, hreach, -⟩ := hr
  exact (hdelivers.reaches hcontent hstart hreach).2

/-- The requests for a resource show its content. -/
theorem requests_deliver (hdelivers : transport.Delivers resources J)
    (hcontent : resources locator.path = some content) {start : η} (hstart : J start)
    (husable : opener.config.Usable) :
    DiskCache.ShowsAside (Chain.requests opener.config.retry locator transport).source content
      content.length (Requested transport locator content start) fun _ => False :=
  Chain.requests_recover (hdelivers.serves hcontent hstart)
    (hdelivers.relents hcontent hstart husable.attempts)

section Present

variable (hnetwork : locator.isNetwork = true) (husable : opener.config.Usable)
  (htransport : opener.transport = some transport) (hdelivers : transport.Delivers resources J)
  (hcontent : resources locator.path = some content)
  (h : world.AtRest opener.config resources J base)
include hnetwork husable htransport hdelivers hcontent h

/-- Without a disk cache a chain for a resource shows its content. -/
theorem opens_uncached (hoff : opener.config.effectiveCacheDirectory = none) :
    opener.Opens resources J base locator world fun chain V =>
      chain.source.Shows content content.length V fun _ => False := by
  have hrequests := requests_deliver hdelivers hcontent h.host husable
  refine ⟨_, _, _, _, openLayer_of_none hnetwork htransport hoff, rfl,
    DiskCache.shows_none (P := (· = world.storage)) hrequests,
    ⟨⟨0, Remote.after_initial transport locator content world.host⟩, rfl⟩, ?_⟩
  intro s hs
  exact h.of_host (host_of_requested hdelivers hcontent h.host hs.1) hs.2

/-- So does one with a disk cache, whether or not it gets a store. -/
theorem opens_cached {directory : String}
    (hon : opener.config.effectiveCacheDirectory = some directory) :
    opener.Opens resources J base locator world fun chain V =>
      chain.source.Shows content content.length V fun _ => False := by
  have hrequests := requests_deliver hdelivers hcontent h.host husable
  have horder := h.cached directory hon
  have hpath := Resources.has_of_eq hcontent
  obtain ⟨first, hfirst⟩ :
      ∃ first : (Chain.requests opener.config.retry locator transport).State × World η,
        first = (Remote.initial locator (some transport), world) := ⟨_, rfl⟩
  have hcacheable : DiskCache.Cacheable
      (Chain.requests opener.config.retry locator transport).source
      (resources.contentOf locator.path).length (fun _ _ => True)
      (Requested transport locator content world.host) := by
    rw [Resources.contentOf_eq hcontent]
    exact hrequests.faithful.cacheable _ fun _ => trivial
  have hlent := Storage.InOrder.openStore_source (s := first) (by rw [hfirst]; exact horder) hpath
    hcacheable
    (by rw [hfirst]; exact ⟨0, Remote.after_initial transport locator content world.host⟩)
  obtain ⟨⟨key, state, world'⟩, hopened⟩ : ∃ opened, DiskCache.openStore directory
      (Chain.requests opener.config.retry locator transport).source first = opened := ⟨_, rfl⟩
  rw [hopened, hfirst] at hlent
  obtain ⟨hstate, hkey, hkept, hleases⟩ := hlent
  change key = none ∨ key = some (CacheEntry.key { directory, path := locator.path }) at hkey
  rw [hfirst] at hopened
  refine ⟨.diskCached key (.requests opener.config.retry locator transport), state, world',
    DiskCache.Beside (Requested transport locator content world.host)
    fun storage => Storage.KeptFor directory resources base storage ∧
      storage.lease? = (Storage.soleLease resources locator.path).lend key world.storage.lease?,
    openLayer_of_some hnetwork htransport hon hopened, rfl, ?_, ⟨hstate, hkept, hleases⟩, ?_⟩
  · -- The chain is the only user of its store, if it has one, so the store suits it.
    rcases hkey with rfl | rfl
    · exact DiskCache.shows_none hrequests
    · have hserves := serves_of_suits horder.upkeep (fun _ hkept => hkept.1) hpath
        (Lease.lend_some _ _ world.storage.lease?)
        (Storage.soleLease_suits resources locator.path)
      rw [Resources.contentOf_eq hcontent] at hserves
      exact DiskCache.shows hrequests hserves (Nat.min_le_right _ _)
  · -- With its only user the store is closed.
    rintro ⟨last, ended⟩ ⟨hrequested, hended, hlent⟩
    have hhost := host_of_requested hdelivers hcontent h.host hrequested
    rcases hkey with rfl | rfl
    · exact .of_cached hon hhost (horder.unlent hended hlent)
    · exact .of_cached hon hhost (horder.release hpath hended hlent)

/-- **A chain for a resource shows its content**, whatever chains there were before. -/
theorem opens_present :
    opener.Opens resources J base locator world fun chain V =>
      chain.source.Shows content content.length V fun _ => False := by
  cases hdirectory : opener.config.effectiveCacheDirectory with
  | none => exact opens_uncached hnetwork husable htransport hdelivers hcontent h hdirectory
  | some directory => exact opens_cached hnetwork husable htransport hdelivers hcontent h hdirectory

end Present

/-! ### Resources that are missing -/

/-- Nobody tells the length of a resource: there is no transport, or none that has heard of it. -/
def Missing (transport : Option (Transport η)) (J : η → Prop) (url : String) : Prop :=
  ∀ transport', transport = some transport' → Yields J (transport'.lengthOf url) (.ok none)

/-- The states of a source for a resource of which nothing is known. -/
def Unheard (J : η → Prop) (r : Remote × η) : Prop :=
  r.1.rememberedSize = none ∧ J r.2

variable {asked : Option (Transport η)}

/-- A source does not find what is missing, and learns nothing. -/
theorem isPresent_remote (hmissing : Missing asked J locator.path) :
    Ensures (Unheard J) (fun _ => True) (Source.remote locator asked).isPresent
      fun yes _ => yes = false := by
  intro r hr
  cases asked with
  | none =>
    have hsize := Remote.size?_of_none (s := r) locator.path hr.1
    simp only [Source.remote, run_bind, hsize, run_pure]
    exact .same hr rfl
  | some transport =>
    obtain ⟨htold, hhost⟩ := hmissing transport rfl r.2 hr.2
    have hsize := Remote.size?_of_missing (s := r) hr.1 (Prod.ext htold rfl)
    simp only [Source.remote, run_bind, hsize, run_pure]
    exact ⟨⟨hr.1, hhost⟩, fun _ => trivial, rfl⟩

/-- Nor do requests. -/
theorem isPresent_requests (hmissing : Missing asked J locator.path) (policy : RetryPolicy)
    (kept : Storage) :
    Ensures (DiskCache.Beside (Unheard J) (· = kept)) (fun _ => True)
      (Chain.retrying policy (.remote locator asked)).source.isPresent
      fun yes _ => yes = false := by
  have hlift {α : Type} {action : StateM (Remote × η) α} {Q : α → Remote × η → Prop}
      (h : Ensures (Unheard J) (fun _ => True) action Q) :
      Ensures (DiskCache.Beside (Unheard J) (· = kept)) (fun _ => True)
        (Chain.onRemote.lift action) fun a s => Q a (Chain.onRemote.get s) :=
    h.lift Chain.onRemote fun _ _ hs => hs
  have hcount : Ensures (Unheard J) (fun _ => True) (Source.remote locator asked).failureCount
      fun _ _ => True := by
    intro r hr
    exact .same hr trivial
  exact Retrying.isPresent_of_absent ((hlift hcount).imp fun _ _ _ _ => trivial)
    (hlift (isPresent_remote hmissing)) policy

/-- **A chain for a resource that is missing finds nothing**, and keeps nothing. -/
theorem opens_absent (hnetwork : locator.isNetwork = true)
    (hmissing : Missing opener.transport J locator.path)
    (h : world.AtRest opener.config resources J base) :
    opener.Opens resources J base locator world fun chain V =>
      Ensures V (fun _ => True) chain.source.isPresent fun yes _ => yes = false := by
  have hpresent := isPresent_requests hmissing opener.config.retry world.storage
  have hinitial : Unheard J (Remote.initial locator opener.transport, world.host) := by
    refine ⟨?_, h.host⟩
    cases opener.transport with
    | none => rfl
    | some _ => rfl
  cases hdirectory : opener.config.effectiveCacheDirectory with
  | none =>
    exact ⟨_, _, _, _, openLayer_of_off hnetwork hdirectory, rfl, hpresent, ⟨hinitial, rfl⟩,
      fun s hs => h.of_host hs.1.2 hs.2⟩
  | some directory =>
    have hfirst := hpresent (Remote.initial locator opener.transport, world) ⟨hinitial, rfl⟩
    exact ⟨_, _, _, _,
      openLayer_of_on hnetwork hdirectory (DiskCache.openStore_of_absent directory hfirst.post), rfl,
      hpresent, hfirst.valid, fun s hs => h.of_host hs.1.2 hs.2⟩

end Opener

end PspBoot
