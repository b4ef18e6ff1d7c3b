import PspBoot.Chain.Opener
import PspBoot.Proofs.Source.DiskCache
import PspBoot.Proofs.Source.MemoryCache
import PspBoot.Proofs.Source.Remote

/-!
# The chain for a network locator

A network chain retries the requests of a remote source, keeps blocks on disk if the configuration
wants it, and keeps blocks in memory.  What stands behind the memory cache is said to relay the
content (`Relays`) if it shows it in two situations: when the transport fails less often in a row
than there are attempts, and when whatever fails is excused.
-/

namespace PspBoot

variable {η : Type} {transport : Transport η} {locator : Locator} {content : Bytes}
  {config : Config}

/-- The chain of a remote source with retries. -/
def Chain.requests (policy : RetryPolicy) (locator : Locator) (transport : Transport η) : Chain η :=
  .retrying policy (.remote locator (some transport))

/-- The states of such a chain that requests can lead to from a state of the host on. -/
def Requested (transport : Transport η) (locator : Locator) (content : Bytes) (start : η)
    (r : Remote × η) : Prop :=
  ∃ k, Remote.After transport locator.path content start k r

/-- What is known of a resource stays known when the requests are counted anew. -/
theorem Requested.restart {start : η} {r : Remote × η}
    (h : Requested transport locator content start r) :
    Requested transport locator content r.2 r := by
  obtain ⟨k, -, hremembered⟩ := h
  exact ⟨0, .start, hremembered⟩

namespace Chain

variable {start : η} {policy : RetryPolicy}

/-- **Retried requests hide failures that do not last.** -/
theorem requests_recover
    (hserves : transport.Serves locator.path content content.length start)
    (hrelents : transport.Relents locator.path content policy.attempts start) :
    DiskCache.ShowsAside (requests policy locator transport).source content content.length
      (Requested transport locator content start) fun _ => False := by
  intro kept
  have hremote := Remote.recovers hserves (Nat.le_refl _) hrelents
  have hwithin := hremote.within onRemote
    (fun w : Remote × World η => w.2.storage = kept) fun _ _ hw => hw
  have hshows := hwithin.retrying (Nat.le_refl policy.attempts)
  refine hshows.congr (fun s => ?_) fun _ => Iff.rfl
  exact exists_and_right.symm

/-- Retried requests deliver as many times what a single one delivers as there are attempts, unless
there is an excuse. -/
theorem requests_show {least : Nat} {excuse : Prop} (hattempts : policy.attempts ≠ 0)
    (hserves : transport.Serves locator.path content least start)
    (hfailures : transport.Relents locator.path content 1 start ∨ excuse) :
    DiskCache.ShowsAside (requests policy locator transport).source content
      (policy.attempts * least) (Requested transport locator content start) fun _ => excuse := by
  intro kept
  have hremote := Remote.shows hserves hfailures
  have hwithin := hremote.within onRemote
    (fun w : Remote × World η => w.2.storage = kept) fun _ _ hw => hw
  exact Retrying.shows hwithin hattempts

/-- If there are enough attempts for a block, or else an excuse, then requests deliver a block. -/
theorem requests_showBlock {block least : Nat} {excuse : Prop} (hattempts : policy.attempts ≠ 0)
    (hserves : transport.Serves locator.path content least start)
    (hfailures : transport.Relents locator.path content 1 start ∨ excuse)
    (hblock : min block content.length ≤ policy.attempts * least ∨ excuse) :
    ∃ reach, min block content.length ≤ reach ∧
      DiskCache.ShowsAside (requests policy locator transport).source content reach
        (Requested transport locator content start) fun _ => excuse := by
  have hshows := requests_show hattempts hserves hfailures
  rcases hblock with hblock | hexcuse
  · exact ⟨_, hblock, hshows⟩
  · refine ⟨block, Nat.min_le_left _ _, fun kept => ?_⟩
    exact (hshows kept).excused (fun _ _ => hexcuse) block

end Chain

/-! ### Behind the memory cache -/

/-- The storage may be used for a content by chains with a configuration. -/
def Config.Trusts (config : Config) (locator : Locator) (content : Bytes) (storage : Storage) :
    Prop :=
  ∀ directory, config.effectiveCacheDirectory = some directory →
    storage.Sound { directory, path := locator.path } (· = content)

/-- A chain behind the memory cache relays a content.  `Valid start` holds of its states that
requests can lead to from the state `start` of the host on; `block` is the length of what the chain
has to get as a whole in order to pass on every byte of it. -/
structure Relays (config : Config) (transport : Transport η) (locator : Locator) (content : Bytes)
    (chain : Chain η) (block : Nat) (Valid : η → chain.State × World η → Prop) : Prop where
  recovers : ∀ start, transport.Serves locator.path content content.length start →
    transport.Relents locator.path content config.retry.attempts start →
    chain.source.Shows content content.length (Valid start) fun _ => False
  shows : ∀ start least (excuse : Prop), transport.Serves locator.path content least start →
    (transport.Relents locator.path content 1 start ∨ excuse) →
    (min block content.length ≤ config.retry.attempts * least ∨ excuse) →
    ∃ reach, min config.memory.effectiveBlockSize content.length ≤ reach ∧
      chain.source.Shows content reach (Valid start) fun _ => excuse
  restart : ∀ start s, Valid start s → Valid s.2.host s
  reaches : ∀ start s, Valid start s →
    ∃ k, transport.Reaches locator.path content.length start k s.2.host
  locator_eq : chain.locator = locator
  trusts : ∀ start s, Valid start s → config.Trusts locator content s.2.storage
  close : ∀ start s, Valid start s → config.Trusts locator content (chain.close s.2).2.storage

/-- Requests without a disk cache relay the content. -/
theorem relays_requests (husable : config.Usable) (hoff : config.effectiveCacheDirectory = none) :
    Relays config transport locator content (.requests config.retry locator transport)
      config.memory.effectiveBlockSize
      fun start => DiskCache.Beside (Requested transport locator content start) fun _ => True where
  recovers start hserves hrelents :=
    DiskCache.shows_none (Chain.requests_recover hserves hrelents)
  shows start least excuse hserves hfailures hblock := by
    obtain ⟨reach, hreach, hshows⟩ :=
      Chain.requests_showBlock husable.attempts hserves hfailures hblock
    exact ⟨reach, hreach, DiskCache.shows_none hshows⟩
  restart start s hs := ⟨hs.1.restart, trivial⟩
  reaches start s hs := hs.1.imp fun _ hk => hk.1
  locator_eq := rfl
  trusts start s hs directory hon := by
    simp [hoff] at hon
  close start s hs directory hon := by
    simp [hoff] at hon

/-- So do they with a disk cache that has no store. -/
theorem relays_unstored {directory : String} (husable : config.Usable)
    (hon : config.effectiveCacheDirectory = some directory) :
    Relays config transport locator content
      (.diskCached none (.requests config.retry locator transport))
      config.memory.effectiveBlockSize
      fun start => DiskCache.Beside (Requested transport locator content start) fun storage =>
        storage.Sound { directory, path := locator.path } (· = content) where
  recovers start hserves hrelents :=
    DiskCache.shows_none (Chain.requests_recover hserves hrelents)
  shows start least excuse hserves hfailures hblock := by
    obtain ⟨reach, hreach, hshows⟩ :=
      Chain.requests_showBlock husable.attempts hserves hfailures hblock
    exact ⟨reach, hreach, DiskCache.shows_none hshows⟩
  restart start s hs := ⟨hs.1.restart, hs.2⟩
  reaches start s hs := hs.1.imp fun _ hk => hk.1
  locator_eq := rfl
  trusts start s hs directory' hon' := by
    rw [hon] at hon'
    cases hon'
    exact hs.2
  close start s hs directory' hon' := by
    rw [hon] at hon'
    cases hon'
    exact hs.2

/-- With a store the blocks of the store are what has to come as a whole. -/
theorem relays_stored {entry : CacheEntry} {users : Nat} (husable : config.Usable)
    (hon : config.effectiveCacheDirectory = some entry.directory)
    (hpath : entry.path = locator.path) :
    Relays config transport locator content
      (.diskCached (some entry.key) (.requests config.retry locator transport))
      BlockStore.blockSize
      fun start => DiskCache.Beside (Requested transport locator content start) fun storage =>
        storage.InUse entry (· = content) content users where
  recovers start hserves hrelents :=
    DiskCache.shows (Chain.requests_recover hserves hrelents)
      (DiskCache.serves_inUse (CacheEntry.single_eq content).apart rfl)
      (Nat.min_le_right _ _)
  shows start least excuse hserves hfailures hblock := by
    obtain ⟨reach, hreach, hshows⟩ :=
      Chain.requests_showBlock husable.attempts hserves hfailures hblock
    exact ⟨content.length, Nat.min_le_right _ _,
      DiskCache.shows hshows (DiskCache.serves_inUse (CacheEntry.single_eq content).apart rfl)
        hreach⟩
  restart start s hs := ⟨hs.1.restart, hs.2⟩
  reaches start s hs := hs.1.imp fun _ hk => hk.1
  locator_eq := rfl
  trusts start s hs directory hon' := by
    rw [hon] at hon'
    cases hon'
    rw [← hpath]
    exact hs.2.sound
  close start s hs directory hon' := by
    rw [hon] at hon'
    cases hon'
    rw [← hpath]
    exact hs.2.sound_release

/-! ### Opening -/

/-- The length of what a chain has to get as a whole, if nothing fails while it is opened. -/
def Config.wholeBlock (config : Config) (locator : Locator) (content : Bytes) (storage : Storage) :
    Nat :=
  match config.effectiveCacheDirectory with
  | none => config.memory.effectiveBlockSize
  | some directory =>
      if (storage.openStore { directory, path := locator.path } content.length).1.isSome then
        BlockStore.blockSize
      else
        config.memory.effectiveBlockSize

namespace Opener

variable {opener : Opener η} {world : World η}

/-- The chain for a network locator, if there is no disk cache. -/
theorem openLayer_of_off (hnetwork : locator.isNetwork = true)
    (hoff : opener.config.effectiveCacheDirectory = none) :
    opener.openLayer locator world =
      (⟨.memoryCached opener.config.memory
          (.retrying opener.config.retry (.remote locator opener.transport)),
        (({} : MemoryCache), Remote.initial locator opener.transport)⟩, world) := by
  rw [openLayer, if_pos hnetwork]
  unfold openRemote
  rw [hoff]
  rfl

/-- The chain for a network locator, after a store has been opened for it or not. -/
theorem openLayer_of_on (hnetwork : locator.isNetwork = true) {directory : String}
    (hon : opener.config.effectiveCacheDirectory = some directory)
    {opened : Option FilePath.Key × (Remote × World η)}
    (hopened : DiskCache.openStore directory
      (Chain.retrying opener.config.retry (.remote locator opener.transport)).source
      (Remote.initial locator opener.transport, world) = opened) :
    opener.openLayer locator world =
      (⟨.memoryCached opener.config.memory
          (.diskCached opened.1 (.retrying opener.config.retry (.remote locator opener.transport))),
        (({} : MemoryCache), opened.2.1)⟩, opened.2.2) := by
  subst hopened
  rw [openLayer, if_pos hnetwork]
  unfold openRemote
  rw [hon]
  rfl

/-- The chain without a disk cache. -/
theorem openLayer_of_none (hnetwork : locator.isNetwork = true)
    (htransport : opener.transport = some transport)
    (hoff : opener.config.effectiveCacheDirectory = none) :
    opener.openLayer locator world =
      (⟨.memoryCached opener.config.memory (.requests opener.config.retry locator transport),
        (({} : MemoryCache), Remote.initial locator (some transport))⟩, world) := by
  rw [openLayer_of_off hnetwork hoff, htransport]
  rfl

/-- The chain with a disk cache. -/
theorem openLayer_of_some (hnetwork : locator.isNetwork = true)
    (htransport : opener.transport = some transport) {directory : String}
    (hon : opener.config.effectiveCacheDirectory = some directory)
    {opened : Option FilePath.Key × (Remote × World η)}
    (hopened : DiskCache.openStore directory
      (Chain.requests opener.config.retry locator transport).source
      (Remote.initial locator (some transport), world) = opened) :
    opener.openLayer locator world =
      (⟨.memoryCached opener.config.memory
          (.diskCached opened.1 (.requests opener.config.retry locator transport)),
        (({} : MemoryCache), opened.2.1)⟩, opened.2.2) := by
  subst hopened
  rw [openLayer_of_on hnetwork hon rfl, htransport]
  rfl

end Opener

/-- Requests with a disk cache relay the content, whether or not a store could be opened. -/
theorem relays_opened {entry : CacheEntry} {key : Option FilePath.Key} {before : Storage}
    {start : η} {state : Remote} {world : World η} (husable : config.Usable)
    (hon : config.effectiveCacheDirectory = some entry.directory)
    (hpath : entry.path = locator.path)
    (hvalid : Requested transport locator content start (state, world.host))
    (hopened : Storage.Opened entry (· = content) content before (key, world.storage)) :
    ∃ Valid,
      Relays config transport locator content
        (.diskCached key (.requests config.retry locator transport))
        (if key.isSome then BlockStore.blockSize else config.memory.effectiveBlockSize) Valid ∧
      Valid start (state, world) := by
  obtain ⟨hsound, husers⟩ := hopened
  rcases husers with ⟨hkey, -⟩ | ⟨hkey, hcount⟩
  · obtain rfl : key = none := hkey
    refine ⟨_, relays_unstored husable hon, hvalid, ?_⟩
    rw [← hpath]
    exact hsound
  · obtain rfl : key = some entry.key := hkey
    rcases hcount with ⟨-, hnew⟩ | ⟨n, -, hmore⟩
    · exact ⟨_, relays_stored husable hon hpath, hvalid, hsound, hnew⟩
    · exact ⟨_, relays_stored husable hon hpath, hvalid, hsound, hmore⟩

/-- **What is opened for a network locator relays the content** behind an empty memory cache. -/
theorem Opener.relays_openLayer {opener : Opener η} {world : World η} {least : Nat}
    (hnetwork : locator.isNetwork = true) (husable : opener.config.Usable)
    (htransport : opener.transport = some transport)
    (hserves : transport.Serves locator.path content least world.host)
    (htrusts : opener.config.Trusts locator content world.storage) :
    ∃ chain state world' block Valid,
      opener.openLayer locator world =
        (⟨.memoryCached opener.config.memory chain, (({} : MemoryCache), state)⟩, world') ∧
      Relays opener.config transport locator content chain block Valid ∧
      Valid world.host (state, world') ∧
      (transport.Relents locator.path content 1 world.host → content.length ≠ 0 →
        block = opener.config.wholeBlock locator content world.storage) := by
  have hinitial : Requested transport locator content world.host
      (Remote.initial locator (some transport), world.host) :=
    ⟨0, Remote.after_initial transport locator content world.host⟩
  cases hdirectory : opener.config.effectiveCacheDirectory with
  | none =>
    refine ⟨_, _, _, _, _, openLayer_of_none hnetwork htransport hdirectory,
      relays_requests husable hdirectory, ⟨hinitial, trivial⟩, fun _ _ => ?_⟩
    rw [Config.wholeBlock, hdirectory]
  | some directory =>
    let entry : CacheEntry := { directory, path := locator.path }
    let requests := Chain.requests opener.config.retry locator transport
    have hrequests := Chain.requests_show husable.attempts hserves (.inr trivial)
    let first : Remote × World η := (Remote.initial locator (some transport), world)
    obtain ⟨hvalid, hopened⟩ := DiskCache.storeOpened_openStore entry first hrequests.faithful rfl
      (CacheEntry.single_eq content).apart rfl hinitial (htrusts directory hdirectory)
    obtain ⟨Valid, hrelays, hrelayed⟩ := relays_opened husable hdirectory rfl hvalid hopened
    refine ⟨_, _, _, _, Valid, openLayer_of_some hnetwork htransport hdirectory rfl, hrelays,
      hrelayed, fun hnever hsize => ?_⟩
    have hstore := DiskCache.openStore_of_shows entry first
      (Chain.requests_show husable.attempts hserves (.inl hnever)) rfl hsize hinitial
    have hkey := congrArg Prod.fst hstore
    dsimp only at hkey
    rw [Config.wholeBlock, hdirectory]
    dsimp only
    rw [← hkey]

/-! ### The whole chain -/

namespace Relays

variable {chain : Chain η} {block : Nat} {Valid : η → chain.State × World η → Prop}

/-- The states of a memory cache in front of a chain that relays a content. -/
def Mirrored (config : Config) (content : Bytes) (V : chain.State × World η → Prop) (excuse : Prop)
    (s : (MemoryCache × chain.State) × World η) : Prop :=
  MemoryCache.Mirrors config.memory content V (fun _ => excuse) (Chain.onCache.get s)

theorem mirrored_initial (config : Config) (content : Bytes) (excuse : Prop)
    {V : chain.State × World η → Prop} {state : chain.State} {world : World η}
    (h : V (state, world)) :
    Mirrored config content V excuse ((({} : MemoryCache), state), world) :=
  MemoryCache.Mirrors.initial h

/-- A memory cache in front of a chain shows what the chain shows. -/
theorem shows_mirrored (config : Config) {V : chain.State × World η → Prop} {excuse : Prop}
    {reach : Nat} (h : chain.source.Shows content reach V fun _ => excuse)
    (hreach : min config.memory.effectiveBlockSize content.length ≤ reach) :
    (Chain.memoryCached config.memory chain).source.Shows content reach
      (Mirrored config content V excuse) fun _ => excuse := by
  have hwithin := (MemoryCache.shows h hreach).within Chain.onCache (fun _ => True)
    fun _ _ _ => trivial
  exact hwithin.congr (fun _ => (iff_of_eq (and_true _)).symm) fun _ => Iff.rfl

end Relays

end PspBoot
