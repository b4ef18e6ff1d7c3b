import PspBoot.Proofs.Chain.Network
import PspBoot.Proofs.Chain.ReadContract
import PspBoot.Proofs.Source.Planned
import PspBoot.Proofs.Source.Requests

/-!
# The failures that a network chain tells

A network chain counts the requests that failed, and nothing else: neither what the layers around its
remote source do nor what the rest of the program does in the meantime is a failure of the chain
(`Opener.accounted_run`).

The chain is watched through its requests.  Beside it stands the same chain on a transport that keeps a
record, and the two are taken through the same events; `Monitors` says of each layer that they stay
together.
-/

namespace PspBoot

variable {η : Type}

/-! ### Runs with a record -/

/-- The world without the record of requests. -/
def World.unrecorded : Focus (World (List Request × η)) (World η) where
  get world := { storage := world.storage, host := world.host.2 }
  put world world' := { storage := world'.storage, host := (world.host.1, world'.host) }

/-- The world with an empty record of requests. -/
def World.recorded (world : World η) : World (List Request × η) where
  storage := world.storage
  host := ([], world.host)

/-- The event in a world with a record, which is none of the rest of the program's. -/
def ChainEvent.recorded : ChainEvent η → ChainEvent (List Request × η)
  | .asked call => .asked call
  | .elsewhere change =>
      .elsewhere fun world => World.unrecorded.put world (change (World.unrecorded.get world))

namespace Opener

/-- The opener of network chains whose requests are recorded.  Factories open no network chains. -/
def recorded (opener : Opener η) : Opener (List Request × η) where
  factories := {}
  config := opener.config
  transport := opener.transport.map .recorded

/-- Opens a chain for a locator and uses it, event by event. -/
def run (opener : Opener η) (locator : Locator) (events : List (ChainEvent η)) :
    StateM (World η) (List (Call × Answer) × Layer η) := do
  let layer ← opener.openLayer locator
  layer.use (layer.chain.transcript events)

/-- The same with a record of the requests. -/
def runRecorded (opener : Opener η) (locator : Locator) (events : List (ChainEvent η))
    (world : World η) : (List (Call × Answer) × Layer (List Request × η)) × World (List Request × η) :=
  opener.recorded.run locator (events.map .recorded) world.recorded

/-- The requests that are made from the opening of the chain on. -/
def requests (opener : Opener η) (locator : Locator) (events : List (ChainEvent η))
    (world : World η) : List Request :=
  (opener.runRecorded locator events world).2.host.1

end Opener

/-- What a layer tells of its failures. -/
def Layer.failures (layer : Layer η) (world : World η) : FailureLog where
  latest := (layer.lastFailure world).1.1
  count := (layer.failureCount world).1.1

/-- What the chain tells in the end. -/
def Opener.failures (opener : Opener η) (locator : Locator) (events : List (ChainEvent η))
    (world : World η) : FailureLog :=
  let ended := opener.run locator events world
  ended.1.2.failures ended.2

theorem Chain.run_transcript_append (chain : Chain η) (before after : List (ChainEvent η))
    (s : chain.State × World η) :
    (chain.transcript (before ++ after) s).2 =
      (chain.transcript after (chain.transcript before s).2).2 := by
  induction before generalizing s with
  | nil => rfl
  | cons event before ih =>
    cases event with
    | asked call => exact ih _
    | elsewhere change => exact ih _

/-! ### Layer by layer -/

/-- Two chains of which the first has a record of its requests.  They do the same (`twins`); what
the remote source in them knows tallies with the record; and nothing but a request adds to what is told
of failures. -/
structure Monitors (locator : Locator) (transport : Option (Transport η))
    (heard : Chain (List Request × η)) (plain : Chain η) (remote : plain.State → Remote)
    (S : List Request → heard.State × World (List Request × η) → plain.State × World η → Prop) :
    Prop where
  locator_eq : heard.locator = plain.locator
  twins : ∀ before, heard.source.Twins (S before) plain.source
  world_eq : ∀ {before s t}, S before s t → t.2 = World.unrecorded.get s.2
  tallies : ∀ {before s t}, S before s t → (remote t.1).Tallies locator transport s.2.host.1
  grows : ∀ {before s t}, S before s t → before <+: s.2.host.1
  restart : ∀ {before s t}, S before s t → S s.2.host.1 s t
  elsewhere : ∀ {before s t} (world : World η), S before s t →
    S before (s.1, World.unrecorded.put s.2 world) (t.1, world)
  lastFailure : ∀ t, plain.source.lastFailure t = ((remote t.1).failures.latest, t)
  failureCount : ∀ t, plain.source.failureCount t = ((remote t.1).failures.count, t)
  hasEntry : ∀ name t, plain.source.hasEntry name t = (false, t)

/-- A remote source in the world, with a record of its requests and without. -/
structure HeardInWorld (locator : Locator) (transport : Option (Transport η))
    (before : List Request) (s : Remote × World (List Request × η)) (t : Remote × World η) :
    Prop where
  remote : Remote.Heard locator transport before (Chain.onRemote.get s) (Chain.onRemote.get t)
  storage : s.2.storage = t.2.storage

theorem monitors_remote (locator : Locator) (transport : Option (Transport η)) :
    Monitors locator transport (.remote locator (transport.map .recorded))
      (.remote locator transport) id (HeardInWorld locator transport) where
  locator_eq := rfl
  twins before := (Remote.twins_recorded locator transport before).within
    (fun _ _ h => h.remote) fun _ _ _ _ h hnext => ⟨hnext, h.storage⟩
  world_eq := by
    rintro before ⟨known, ⟨kept, host⟩⟩ ⟨known', ⟨kept', host'⟩⟩ ⟨hremote, hstorage⟩
    cases hstorage
    cases hremote.same
    rfl
  tallies := by
    rintro before ⟨known, ⟨kept, host⟩⟩ ⟨known', ⟨kept', host'⟩⟩ ⟨hremote, -⟩
    cases hremote.same
    exact hremote.tallies
  grows h := h.remote.grows
  restart h := ⟨⟨h.remote.same, h.remote.tallies, List.prefix_refl _⟩, h.storage⟩
  elsewhere := by
    rintro before ⟨known, ⟨kept, host⟩⟩ ⟨known', ⟨kept', host'⟩⟩ world ⟨hremote, -⟩
    cases hremote.same
    exact ⟨⟨rfl, hremote.tallies, hremote.grows⟩, rfl⟩
  lastFailure _ := rfl
  failureCount _ := rfl
  hasEntry _ _ := rfl

/-- What an action comes to behind a memory cache. -/
def besideCache {α σ : Type} (cache : MemoryCache) (result : α × (σ × World η)) :
    α × ((MemoryCache × σ) × World η) :=
  (result.1, ((cache, result.2.1), result.2.2))

namespace Monitors

variable {locator : Locator} {transport : Option (Transport η)}
  {heard : Chain (List Request × η)} {plain : Chain η} {remote : plain.State → Remote}
  {S : List Request → heard.State × World (List Request × η) → plain.State × World η → Prop}
  {before : List Request} {s : heard.State × World (List Request × η)} {t : plain.State × World η}
  (h : Monitors locator transport heard plain remote S)
include h

/-- Requests that are repeated are requests. -/
theorem retrying (policy : RetryPolicy) :
    Monitors locator transport (.retrying policy heard) (.retrying policy plain) remote S :=
  { h with twins := fun before => (h.twins before).retrying policy }

theorem storage_eq (hs : S before s t) : s.2.storage = t.2.storage := by
  rw [h.world_eq hs]
  rfl

theorem put_storage (kept : Storage) (hs : S before s t) :
    S before (DiskCache.storage.put s kept) (DiskCache.storage.put t kept) := by
  obtain ⟨state, world⟩ := t
  have hworld : world = World.unrecorded.get s.2 := h.world_eq hs
  subst hworld
  exact h.elsewhere { World.unrecorded.get s.2 with storage := kept } hs

/-- What is done to the block store is none of the requests. -/
theorem diskCached (key : Option FilePath.Key) :
    Monitors locator transport (.diskCached key heard) (.diskCached key plain) remote S :=
  { h with
    twins := fun before => (h.twins before).diskCached (fun _ _ => h.storage_eq)
      (fun _ _ kept hs _ => h.put_storage kept hs) key }

/-- Neither is what is done to the memory cache. -/
theorem memoryCached (policy : MemoryPolicy) :
    Monitors locator transport (.memoryCached policy heard) (.memoryCached policy plain)
      (fun state => remote state.2)
      fun before s t => MemoryCache.Abreast (S before) (Chain.onCache.get s) (Chain.onCache.get t)
    where
  locator_eq := h.locator_eq
  twins before := ((h.twins before).memoryCached policy).within (fun _ _ hs => hs)
    fun _ _ _ _ _ hnext => hnext
  world_eq hs := h.world_eq hs.2
  tallies hs := h.tallies hs.2
  grows hs := h.grows hs.2
  restart hs := ⟨hs.1, h.restart hs.2⟩
  elsewhere world hs := ⟨hs.1, h.elsewhere world hs.2⟩
  lastFailure := fun ⟨⟨cache, state⟩, world⟩ =>
    congrArg (besideCache cache) (h.lastFailure (state, world))
  failureCount := fun ⟨⟨cache, state⟩, world⟩ =>
    congrArg (besideCache cache) (h.failureCount (state, world))
  hasEntry name := fun ⟨⟨cache, state⟩, world⟩ =>
    congrArg (besideCache cache) (h.hasEntry name (state, world))

/-- What is told of failures is what the remote source knows of them. -/
theorem failures_eq (t : plain.State × World η) :
    (⟨plain, t.1⟩ : Layer η).failures t.2 = (remote t.1).failures := by
  rw [Layer.failures, Layer.lastFailure, Layer.failureCount, Layer.use, Layer.use, h.lastFailure,
    h.failureCount]

/-- With a record the same is told. -/
theorem failures_recorded (hs : S before s t) :
    (⟨heard, s.1⟩ : Layer (List Request × η)).failures s.2 = (remote t.1).failures := by
  have hlatest := ((h.twins before).lastFailure s t hs).1
  have hcount := ((h.twins before).failureCount s t hs).1
  rw [h.lastFailure] at hlatest
  rw [h.failureCount] at hcount
  rw [Layer.failures, Layer.lastFailure, Layer.failureCount, Layer.use, Layer.use, hlatest, hcount]

/-- **Through whatever happens the two chains stay together.** -/
theorem alike_transcript (before : List Request) (events : List (ChainEvent η)) :
    Alike (S before) (heard.transcript (events.map .recorded)) (plain.transcript events) := by
  induction events with
  | nil => exact .pure []
  | cons event events ih =>
    cases event with
    | asked call =>
      exact ((h.twins before).ask call).bind fun answer => ih.bind fun rest => .pure _
    | elsewhere change =>
      refine Alike.bind (fun s t hs => ⟨rfl, ?_⟩) fun _ => ih
      have hnext : S before
          (s.1, World.unrecorded.put s.2 (change (World.unrecorded.get s.2)))
          (t.1, change t.2) := by
        rw [← h.world_eq hs]
        exact h.elsewhere _ hs
      exact hnext

end Monitors

/-! ### Network chains -/

/-- Without a transport there is one failure from the beginning. -/
theorem Remote.failures_initial (locator : Locator) (transport : Option (Transport η)) :
    (initial locator transport).failures =
      if transport.isNone then
        { latest := some ("no network transport configured for " ++ locator.path), count := 1 }
      else
        {} := by
  cases transport with
  | none | some transport => rfl

/-- What a network chain tells of its failures is accounted for by its requests, and a length that
was told is not asked for again. -/
structure Opener.Accounted (opener : Opener η) (locator : Locator) (events : List (ChainEvent η))
    (world : World η) : Prop where
  /-- To keep a record changes nothing. -/
  recorded :
    let heard := opener.runRecorded locator events world
    let plain := opener.run locator events world
    heard.1.1 = plain.1.1 ∧ heard.1.2.failures heard.2 = plain.1.2.failures plain.2 ∧
      World.unrecorded.get heard.2 = plain.2
  count : (opener.failures locator events world).count =
    (Request.failures (opener.requests locator events world)).length +
      if opener.transport.isNone then 1 else 0
  latest : (opener.failures locator events world).latest =
    (Request.failures (opener.requests locator events world)).getLast?.or
      (if opener.transport.isNone then
        some ("no network transport configured for " ++ locator.path)
      else
        none)
  /-- Without a transport there are no requests. -/
  unserved : opener.transport = none → opener.requests locator events world = []
  latest_eq_none : (opener.failures locator events world).latest = none ↔
    (opener.failures locator events world).count = 0
  askedOnce : Request.AskedOnce (opener.requests locator events world)
  /-- To ask for the account, or for an entry, changes nothing. -/
  unchanged :
    let plain := opener.run locator events world
    let told := opener.failures locator events world
    plain.1.2.lastFailure plain.2 = ((told.latest, plain.1.2), plain.2) ∧
      plain.1.2.failureCount plain.2 = ((told.count, plain.1.2), plain.2) ∧
        ∀ name, plain.1.2.hasEntry name plain.2 = ((false, plain.1.2), plain.2)

namespace Opener

variable {opener : Opener η} {locator : Locator} {world : World η}

/-- A chain that is opened with a record stays together with the same chain without one. -/
theorem monitored_openLayer (opener : Opener η) (hnetwork : locator.isNetwork = true)
    (world : World η) :
    ∃ heard plain remote S start start',
      Monitors locator opener.transport heard plain remote S ∧ S [] start start' ∧
        opener.recorded.openLayer locator world.recorded = (⟨heard, start.1⟩, start.2) ∧
        opener.openLayer locator world = (⟨plain, start'.1⟩, start'.2) := by
  let requests : Chain (List Request × η) :=
    .retrying opener.config.retry (.remote locator (opener.transport.map .recorded))
  let requests' : Chain η := .retrying opener.config.retry (.remote locator opener.transport)
  let S : List Request → requests.State × World (List Request × η) → requests'.State × World η →
      Prop := HeardInWorld locator opener.transport
  have hrequests : Monitors locator opener.transport requests requests' id S :=
    (monitors_remote locator opener.transport).retrying opener.config.retry
  let first : requests.State × World (List Request × η) :=
    (Remote.initial locator (opener.transport.map .recorded), world.recorded)
  let first' : requests'.State × World η := (Remote.initial locator opener.transport, world)
  have hinitial : Remote.initial locator (opener.transport.map .recorded) =
      Remote.initial locator opener.transport := by
    cases opener.transport with
    | none | some transport => rfl
  have hfirst : S [] first first' := by
    refine ⟨⟨?_, ?_, List.prefix_refl []⟩, rfl⟩
    · exact congrArg (·, world.host) hinitial.symm
    · change (Remote.initial locator (opener.transport.map .recorded)).Tallies _ _ _
      rw [hinitial]
      exact Remote.tallies_initial locator opener.transport
  cases hdirectory : opener.config.effectiveCacheDirectory with
  | none =>
    exact ⟨.memoryCached opener.config.memory requests, .memoryCached opener.config.memory requests',
      _, _, (({}, first.1), first.2), (({}, first'.1), first'.2),
      hrequests.memoryCached opener.config.memory, ⟨rfl, hfirst⟩,
      openLayer_of_off hnetwork hdirectory, openLayer_of_off hnetwork hdirectory⟩
  | some directory =>
    -- The same store is opened for both, or none.
    have halike : Alike (S []) (DiskCache.openStore directory requests.source)
        (DiskCache.openStore directory requests'.source) :=
      (hrequests.twins []).openStore (fun _ _ => hrequests.storage_eq)
        (fun _ _ kept => hrequests.put_storage kept) rfl directory
    obtain ⟨hkey, hopened⟩ := halike first first' hfirst
    rcases hrun : DiskCache.openStore directory requests.source first with ⟨key, kept⟩
    rcases hrun' : DiskCache.openStore directory requests'.source first' with ⟨key', kept'⟩
    rw [hrun, hrun'] at hkey hopened
    obtain rfl : key = key' := hkey
    have hrecorded : opener.recorded.config.effectiveCacheDirectory = some directory := hdirectory
    exact ⟨.memoryCached opener.config.memory (.diskCached key requests),
      .memoryCached opener.config.memory (.diskCached key requests'), _, _,
      (({}, kept.1), kept.2), (({}, kept'.1), kept'.2),
      (hrequests.diskCached key).memoryCached opener.config.memory, ⟨rfl, hopened⟩,
      openLayer_of_on hnetwork hrecorded hrun, openLayer_of_on hnetwork hdirectory hrun'⟩

theorem run_of_openLayer {chain : Chain η} {start : chain.State × World η}
    (h : opener.openLayer locator world = (⟨chain, start.1⟩, start.2))
    (events : List (ChainEvent η)) :
    opener.run locator events world =
      (((chain.transcript events start).1, ⟨chain, (chain.transcript events start).2.1⟩),
        (chain.transcript events start).2.2) := by
  rw [run, run_bind, h]
  rfl

/-- **The failures that a network chain tells are the requests that failed**, whatever happens. -/
theorem accounted (opener : Opener η) (hnetwork : locator.isNetwork = true)
    (events : List (ChainEvent η)) (world : World η) : opener.Accounted locator events world := by
  obtain ⟨heard, plain, remote, S, start, start', h, hstart, hheard, hplain⟩ :=
    opener.monitored_openLayer hnetwork world
  obtain ⟨hanswers, hended⟩ := h.alike_transcript [] events start start' hstart
  have hrunHeard : opener.runRecorded locator events world = _ :=
    run_of_openLayer hheard (events.map .recorded)
  have hrunPlain := run_of_openLayer hplain events
  generalize heard.transcript (events.map .recorded) start = ran at *
  generalize plain.transcript events start' = ran' at *
  have htallies := h.tallies hended
  have hrequests : opener.requests locator events world = ran.2.2.host.1 := by
    rw [requests, hrunHeard]
  have hfailures : opener.failures locator events world = (remote ran'.2.1).failures := by
    rw [Opener.failures, hrunPlain]
    exact h.failures_eq ran'.2
  have hcount := FailureLog.count_recordAll (Remote.initial locator opener.transport).failures
    (Request.failures ran.2.2.host.1)
  have hlatest := FailureLog.latest_recordAll (Remote.initial locator opener.transport).failures
    (Request.failures ran.2.2.host.1)
  rw [← htallies.failures, ← hfailures, ← hrequests, Remote.failures_initial] at hcount hlatest
  constructor
  case recorded =>
    rw [hrunHeard, hrunPlain]
    exact ⟨hanswers, (h.failures_recorded hended).trans (h.failures_eq ran'.2).symm,
      (h.world_eq hended).symm⟩
  case count =>
    rw [hcount, Nat.add_comm]
    split
    · rfl
    · rfl
  case latest =>
    rw [hlatest]
    split
    · rfl
    · rfl
  case unserved =>
    intro hnone
    rw [hrequests]
    exact htallies.unserved hnone
  case latest_eq_none =>
    rw [hlatest, hcount]
    split
    · simp
    · simp
  case askedOnce =>
    rw [hrequests]
    exact htallies.once
  case unchanged =>
    rw [hfailures, hrunPlain]
    refine ⟨?_, ?_, fun name => ?_⟩
    · rw [Layer.lastFailure, Layer.use, h.lastFailure]
    · rw [Layer.failureCount, Layer.use, h.failureCount]
    · rw [Layer.hasEntry, Layer.use, h.hasEntry]

/-- The record only grows. -/
theorem requests_append (opener : Opener η) (hnetwork : locator.isNetwork = true)
    (before after : List (ChainEvent η)) (world : World η) :
    opener.requests locator before world <+: opener.requests locator (before ++ after) world := by
  obtain ⟨heard, plain, remote, S, start, start', h, hstart, hheard, -⟩ :=
    opener.monitored_openLayer hnetwork world
  have hrun (events : List (ChainEvent η)) : opener.requests locator events world =
      (heard.transcript (events.map .recorded) start).2.2.host.1 := by
    have hran : opener.runRecorded locator events world = _ :=
      run_of_openLayer hheard (events.map .recorded)
    rw [requests, hran]
  obtain ⟨-, hmiddle⟩ := h.alike_transcript [] before start start' hstart
  obtain ⟨-, hend⟩ := h.alike_transcript _ after _ _ (h.restart hmiddle)
  rw [hrun, hrun, List.map_append, Chain.run_transcript_append]
  exact h.grows hend

/-- **The account of failures changes with a request that fails, and with nothing else.**  After any
events the chain tells as many failures as requests have failed, and the last of them; and between two
moments it tells the same if no request has failed meanwhile. -/
theorem accounted_run (opener : Opener η) (hnetwork : locator.isNetwork = true)
    (before after : List (ChainEvent η)) (world : World η) :
    let earlier := opener.failures locator before world
    let told := opener.failures locator (before ++ after) world
    opener.Accounted locator (before ++ after) world ∧
      ∃ made,
        opener.requests locator (before ++ after) world =
          opener.requests locator before world ++ made ∧
        ((∀ request ∈ made, request.failure? = none) →
          told.count = earlier.count ∧ told.latest = earlier.latest) := by
  intro earlier told
  have hbefore := opener.accounted hnetwork before world
  have hafter := opener.accounted hnetwork (before ++ after) world
  obtain ⟨made, hmade⟩ := opener.requests_append hnetwork before after world
  refine ⟨hafter, made, hmade.symm, fun hnone => ?_⟩
  have hmeanwhile : Request.failures made = [] := List.filterMap_eq_nil_iff.mpr hnone
  have hsame : Request.failures (opener.requests locator (before ++ after) world) =
      Request.failures (opener.requests locator before world) := by
    rw [← hmade, Request.failures_append, hmeanwhile, List.append_nil]
  constructor
  · rw [hafter.count, hbefore.count, hsame]
  · rw [hafter.latest, hbefore.latest, hsame]

/-- The length is told at the second attempt, and so is the range; what the memory cache answers is no
request.  Without a transport there is one failure, and no request at all. -/
theorem accounted_run_planned :
    let locator := Locator.ofPath "http://host/game.bin"
    let opener : Opener (List Bool) :=
      { factories := {}, config := { Config.standard "/cache" with headless := true }
        transport := some (.planned [7, 8, 9] 3) }
    let unserved : Opener (List Bool) := { opener with transport := none }
    let world : World (List Bool) := { host := [true, false, true] }
    let before : List (ChainEvent (List Bool)) := [.asked .size]
    let after : List (ChainEvent (List Bool)) := [.asked (.readAt 0 2), .asked (.readAt 1 2)]
    locator.isNetwork = true ∧ opener.Accounted locator (before ++ after) world ∧
      (opener.requests locator (before ++ after) world).map Request.failure? =
        [some "transport failure: planned", none, some "transport failure: planned", none] ∧
      opener.failures locator before world =
        { latest := some "transport failure: planned", count := 1 } ∧
      opener.failures locator (before ++ after) world =
        { latest := some "transport failure: planned", count := 2 } ∧
      unserved.Accounted locator (before ++ after) world ∧
      unserved.failures locator (before ++ after) world =
        { latest := some "no network transport configured for http://host/game.bin", count := 1 } := by
  intro locator opener unserved world before after
  have hnetwork : locator.isNetwork = true := rfl
  exact ⟨hnetwork, (opener.accounted_run hnetwork before after world).1, by decide +kernel,
    by decide +kernel, by decide +kernel, (unserved.accounted_run hnetwork before after world).1,
    by decide +kernel⟩

end Opener

end PspBoot
