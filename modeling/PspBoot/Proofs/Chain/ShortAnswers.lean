import PspBoot.Proofs.Chain.Transparency

/-!
# Network chains on transports with short answers

A transport may answer a request with fewer bytes than it was asked for.  Retries go on behind what
has come, but each answer counts as an attempt, and caches want whole blocks: a block that does not
come as a whole in the attempts of one read is not kept, and the next read starts over at its
beginning.  So a chain reaches every byte if and only if its attempts are enough for a block
(`Opener.reaches_iff`).
-/

namespace PspBoot

variable {η : Type} {transport : Transport η} {locator : Locator} {content : Bytes}
  {config : Config}

namespace Transport

/-- The transport of a content that never fails and sends at most `cap` bytes at a time. -/
def capped (content : Bytes) (cap : Nat) : Transport η where
  lengthOf _ := pure (.ok (some content.length))
  fetch _ offset len := pure (.ok ((Bytes.slice content offset len).take cap))

theorem serves_capped (url : String) (content : Bytes) (cap : Nat) (start : η) :
    (capped content cap).Serves url content cap start where
  length _ _ _ _ h := by
    cases h
    rfl
  range _ _ _ _ _ _ _ _ h := by
    cases h
    exact .take _ _

theorem relents_capped (url : String) (content : Bytes) (cap : Nat) (start : η) :
    (capped content cap).Relents url content 1 start := by
  intro k host h
  induction h with
  | start => exact Nat.one_pos
  | lengthTold | rangeSent => exact Nat.one_pos
  | lengthFailed _ h => cases h
  | rangeFailed _ _ _ h => cases h

end Transport

/-- No read of a remote source on such a transport delivers more. -/
theorem Remote.length_readAt_capped (content : Bytes) (cap : Nat) (url : String) (offset len : Nat)
    (s : Remote × η) :
    (readAt (some (.capped content cap)) url offset len s).1.length ≤ cap := by
  simp only [readAt, run_bind]
  split
  · apply Nat.zero_le
  · simp only [Transport.capped, run_bind, Focus.lift_run, run_pure, List.length_take]
    omega

/-- Nor does one of retried requests deliver more than that for every attempt. -/
theorem Chain.length_requests_capped (policy : RetryPolicy) (locator : Locator) (content : Bytes)
    (cap offset len : Nat) (s : Remote × World η) :
    ((requests policy locator (.capped content cap)).source.readAt offset len s).1.length ≤
      policy.attempts * cap :=
  Retrying.length_readAt_le
    (fun offset len s => Remote.length_readAt_capped content cap locator.path offset len
      (onRemote.get s)) policy offset len s

namespace Opener

variable {world : World η} {least : Nat}

/-- If the attempts are enough for a block, every byte is reached. -/
theorem reaches_of_le (opener : Opener η) (hnetwork : locator.isNetwork = true)
    (husable : opener.config.Usable)
    (htransport : opener.transport = some transport)
    (hserves : transport.Serves locator.path content least world.host)
    (hnever : transport.Relents locator.path content 1 world.host)
    (htrusts : opener.config.Trusts locator content world.storage)
    (hblock : min (opener.config.wholeBlock locator content world.storage) content.length ≤
      opener.config.retry.attempts * least)
    (calls : List Call) {offset len : Nat} (hoffset : offset < content.length) (hlen : len ≠ 0) :
    let opened := opener.openLayer locator world
    let asked := opened.1.askAll calls opened.2
    let data := (asked.1.2.readAt offset len asked.2).1.1
    data ≠ [] ∧ data <+: Bytes.slice content offset len := by
  obtain ⟨chain, state, world', block, Valid, hopen, hrelays, hvalid, hwhole⟩ :=
    relays_openLayer hnetwork husable htransport hserves htrusts
  have hsome : content.length ≠ 0 := by omega
  rw [← hwhole hnever hsome] at hblock
  obtain ⟨reach, hreach, hshows⟩ :=
    hrelays.shows world.host least False hserves (.inl hnever) (.inl hblock)
  have hchain := Relays.shows_mirrored opener.config hshows hreach
  have hkept := Source.valid_askAll hchain.ask calls
    (Relays.mirrored_initial opener.config content False hvalid)
  rw [hopen]
  have hdata := (hchain.readAt offset len _ hkept).post
  have hsmall : 1 ≤ opener.config.memory.effectiveBlockSize := Nat.le_max_right _ _
  have hbyte : 0 < min reach (Bytes.slice content offset len).length := by
    rw [Bytes.length_slice]
    omega
  refine ⟨List.ne_nil_of_length_pos ?_, hdata.isPrefix⟩
  exact Nat.lt_of_lt_of_le hbyte (hdata.reaches.resolve_right id)

/-- Behind the bytes that all attempts together can deliver, the first block is hidden by a disk
cache that has just been opened. -/
theorem hidden_behind_disk {entry : CacheEntry} {inner : Source (Remote × World η)}
    {before : Storage} {V : Remote × η → Prop} {reach bound : Nat}
    {opened : Option FilePath.Key × (Remote × World η)}
    (hshows : DiskCache.ShowsAside inner content reach V fun _ => False)
    (hread : ∀ offset len t, (inner.readAt offset len t).1.length ≤ bound)
    (hnew : before.Untouched entry) (hvalid : V (DiskCache.aside.get opened.2))
    (hopened : (opened.1, opened.2.2.storage) = before.openStore entry content.length)
    (hblock : bound < if (before.openStore entry content.length).1.isSome then BlockStore.blockSize
      else config.memory.effectiveBlockSize)
    (hbound : bound < content.length) :
    (MemoryCache.readAt config.memory (inner.diskCached opened.1) bound 1
      (({} : MemoryCache), opened.2)).1 = [] := by
  rw [← hopened] at hblock
  obtain ⟨key, s⟩ := opened
  cases key with
  | none =>
    have hsize := (hshows s.2.storage).size s ⟨hvalid, rfl⟩
    exact MemoryCache.readAt_eq_nil_of_lt (hsize.post.resolve_right And.right) hbound hblock hread
  | some key =>
    have hkey : (before.openStore entry content.length).1.isSome = true := by
      rw [← hopened]
      rfl
    obtain ⟨hsame, store, hstore, hsize, hfilled⟩ := hnew.openStore hkey
    rw [← hopened] at hsame hstore
    obtain rfl : key = entry.key := Option.some.inj hsame
    have hrun := DiskCache.run_size inner hstore
    have hlength : ((inner.diskCached (some entry.key)).size s).1 = content.length := by
      rw [hrun, hsize]
    apply MemoryCache.readAt_eq_nil hlength hbound
    rw [hrun]
    refine DiskCache.length_readAt_le hstore ?_ ?_ hread (BlockGrid.start_indexOf_le _ _) _
    · rw [hfilled]
      exact List.not_mem_nil
    · rw [BlockGrid.width, BlockGrid.start, Nat.zero_mul, Nat.sub_zero]
      simp only [BlockStore.grid, hsize]
      exact Nat.lt_min.mpr ⟨hblock, hbound⟩

/-- If the attempts are not enough, a byte of the first block is hidden on a transport with answers
of limited length, as long as nothing has been stored before. -/
theorem hidden_of_lt (opener : Opener η) (hnetwork : locator.isNetwork = true)
    (husable : opener.config.Usable)
    (htransport : opener.transport = some (.capped content least))
    (hfresh : ∀ directory, opener.config.effectiveCacheDirectory = some directory →
      world.storage.Untouched { directory, path := locator.path })
    (hblock : opener.config.retry.attempts * least <
      min (opener.config.wholeBlock locator content world.storage) content.length) :
    let opened := opener.openLayer locator world
    (opened.1.readAt (opener.config.retry.attempts * least) 1 opened.2).1.1 = [] := by
  let transport : Transport η := .capped content least
  let requests := Chain.requests opener.config.retry locator transport
  have hread := Chain.length_requests_capped (η := η) opener.config.retry locator content least
  obtain ⟨hwhole, hbound⟩ := Nat.lt_min.mp hblock
  have hinitial : Requested transport locator content world.host
      (Remote.initial locator (some transport), world.host) :=
    ⟨0, Remote.after_initial _ locator content world.host⟩
  have hshows : DiskCache.ShowsAside requests.source content _ _ fun _ => False :=
    Chain.requests_show husable.attempts (Transport.serves_capped _ _ _ world.host)
      (.inl (Transport.relents_capped _ _ _ world.host))
  rw [Config.wholeBlock] at hwhole
  cases hdirectory : opener.config.effectiveCacheDirectory with
  | none =>
    rw [hdirectory] at hwhole
    rw [openLayer_of_none hnetwork htransport hdirectory]
    have hsize := (hshows world.storage).size (_, world) ⟨hinitial, rfl⟩
    exact MemoryCache.readAt_eq_nil_of_lt (hsize.post.resolve_right And.right) hbound hwhole hread
  | some directory =>
    let entry : CacheEntry := { directory, path := locator.path }
    let first : Remote × World η := (Remote.initial locator (some transport), world)
    have hnew : world.storage.Untouched entry := hfresh directory hdirectory
    obtain ⟨hvalid, -⟩ := DiskCache.storeOpened_openStore entry first hshows.faithful rfl
      (CacheEntry.single_eq content).apart rfl hinitial (.inl hnew)
    have hopened := DiskCache.openStore_of_shows entry first hshows rfl (by omega) hinitial
    rw [hdirectory] at hwhole
    rw [openLayer_of_some hnetwork htransport hdirectory rfl]
    exact hidden_behind_disk hshows hread hnew hvalid hopened hwhole hbound

end Opener

/-- Every byte is reached: whatever transport serves the content, never fails and sends at least
`least` bytes at a time, and whatever has been asked before, a read inside the resource delivers
something, and nothing that is wrong. -/
def Config.ReachesAll (config : Config) (factories : Factories η) (locator : Locator)
    (content : Bytes) (least : Nat) (world : World η) : Prop :=
  ∀ transport : Transport η, transport.Serves locator.path content least world.host →
    transport.Relents locator.path content 1 world.host →
    ∀ calls offset len, offset < content.length → len ≠ 0 →
      let opener : Opener η := { factories, config, transport := some transport }
      let opened := opener.openLayer locator world
      let asked := opened.1.askAll calls opened.2
      let data := (asked.1.2.readAt offset len asked.2).1.1
      data ≠ [] ∧ data <+: Bytes.slice content offset len

/-- **A network chain reaches every byte if and only if its attempts are enough for a block**, that
is, a block of the store if it has one and else of the memory cache.  A store that has been used
before may know more. -/
theorem Config.reachesAll_iff {factories : Factories η} {least : Nat} {world : World η}
    (hnetwork : locator.isNetwork = true) (husable : config.Usable)
    (hstorage : ∀ directory, config.effectiveCacheDirectory = some directory →
      LeftBehind { directory, path := locator.path } content world.storage) :
    (min (config.wholeBlock locator content world.storage) content.length ≤
        config.retry.attempts * least →
      config.ReachesAll factories locator content least world) ∧
    ((∀ directory, config.effectiveCacheDirectory = some directory →
        world.storage.Untouched { directory, path := locator.path }) →
      config.ReachesAll factories locator content least world →
      min (config.wholeBlock locator content world.storage) content.length ≤
        config.retry.attempts * least) := by
  constructor
  · intro hblock transport hserves hnever calls offset len hoffset hlen
    have htrusts : config.Trusts locator content world.storage :=
      fun directory hon => (hstorage directory hon).sound.1
    exact Opener.reaches_of_le { factories, config, transport := some transport } hnetwork husable
      rfl hserves hnever htrusts hblock calls hoffset hlen
  · intro hfresh hall
    by_cases hblock : min (config.wholeBlock locator content world.storage) content.length ≤
        config.retry.attempts * least
    · exact hblock
    · have hlt := Nat.not_le.mp hblock
      have hhidden := Opener.hidden_of_lt
        { factories, config, transport := some (.capped content least) } hnetwork husable rfl
        hfresh hlt
      have hreached := hall (.capped content least) (Transport.serves_capped _ _ _ _)
        (Transport.relents_capped _ _ _ _) [] (config.retry.attempts * least) 1
        (Nat.lt_of_lt_of_le hlt (Nat.min_le_right _ _)) Nat.one_ne_zero
      exact absurd hhidden hreached.1

/-- Three attempts are enough for three bytes. -/
theorem Config.reachesAll_three :
    let config : Config := { Config.standard "/cache" with headless := true }
    config.ReachesAll {} (.ofPath "http://host/game.bin") [7, 8, 9] 1 { host := () } := by
  intro config
  have husable : config.Usable := ⟨by decide, by decide, by decide⟩
  have hiff := @reachesAll_iff Unit (.ofPath "http://host/game.bin") [7, 8, 9] config {} 1
    { host := () } rfl husable fun _ hon => by cases hon
  exact hiff.1 (by decide)

/-- They are not enough for four.  A transport that sends one byte at a time would deliver the last
of them when asked for it, but the chain does not get there. -/
theorem Config.not_reachesAll_four :
    let opener : Opener Unit :=
      { factories := {}, config := { Config.standard "/cache" with headless := true }
        transport := some (.capped [7, 8, 9, 10] 1) }
    let opened := opener.openLayer (.ofPath "http://host/game.bin") { host := () }
    (Transport.capped [7, 8, 9, 10] 1).fetch "http://host/game.bin" 3 1 () = (.ok [10], ()) ∧
      (opened.1.readAt 3 1 opened.2).1.1 = [] := by
  intro opener opened
  exact ⟨rfl, by decide +kernel⟩

end PspBoot
