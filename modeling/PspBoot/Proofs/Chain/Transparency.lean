import PspBoot.Image.Survey
import PspBoot.Proofs.Chain.FailingDevice
import PspBoot.Proofs.Chain.Network
import PspBoot.Proofs.Image.Identify
import PspBoot.Proofs.Source.Planned

/-!
# Network chains are transparent

A network chain whose transport never fails too often in a row answers as the plain source of the
content does, and is identified as that source.  Its cache directory may have been used before
(`LeftBehind`), by disk cached layers of any kind and by other network chains, as long as they had
the same content.
-/

namespace PspBoot

variable {η : Type} {transport : Transport η} {locator : Locator} {content : Bytes}

/-- What earlier runs may have left behind in the storage.  The transports of earlier chains need
not have answered anything, and no run need have closed what it had opened. -/
inductive LeftBehind (entry : CacheEntry) (content : Bytes) : Storage → Prop
  | nothing {storage} (h : storage.Untouched entry) : LeftBehind entry content storage
  | layers {η : Type} {J : η → Prop} {start : World η} {steps : List (EntryStep η)}
      (before : LeftBehind entry content start.storage) (hhost : J start.host)
      (hsteps : ∀ next ∈ steps, EntryUsers.Allowed entry.path (fun _ => content) J next) :
      LeftBehind entry content
        { (EntryUsers.run entry.directory { world := start } steps).world.storage with
          stores := [] }
  | chain {η : Type} {opener : Opener η} {transport : Transport η} {locator : Locator}
      {start : World η} {calls : List Call} {asked : (List Answer × Layer η) × World η}
      {ended : World η}
      (before : LeftBehind entry content start.storage)
      (hnetwork : locator.isNetwork = true) (hpath : locator.path = entry.path)
      (husable : opener.config.Usable) (htransport : opener.transport = some transport)
      (hdirectory : opener.config.effectiveCacheDirectory = some entry.directory)
      (hserves : transport.Serves locator.path content 0 start.host)
      (hasked : (opener.openLayer locator start).1.askAll calls
        (opener.openLayer locator start).2 = asked)
      (hended : ended = asked.2 ∨ ended = (asked.1.2.close asked.2).2) :
      LeftBehind entry content { ended.storage with stores := [] }

/-- What a network chain leaves of the storage can be trusted. -/
theorem Opener.trusts_askAll {opener : Opener η} {world : World η} {least : Nat}
    (hnetwork : locator.isNetwork = true) (husable : opener.config.Usable)
    (htransport : opener.transport = some transport)
    (hserves : transport.Serves locator.path content least world.host)
    (htrusts : opener.config.Trusts locator content world.storage) (calls : List Call) :
    let opened := opener.openLayer locator world
    let asked := opened.1.askAll calls opened.2
    opener.config.Trusts locator content asked.2.storage ∧
      opener.config.Trusts locator content (asked.1.2.close asked.2).2.storage := by
  obtain ⟨chain, state, world', block, Valid, hopen, hrelays, hvalid, -⟩ :=
    relays_openLayer hnetwork husable htransport hserves htrusts
  intro opened asked
  obtain ⟨reach, hreach, hshows⟩ :=
    hrelays.shows world.host least True hserves (.inr trivial) (.inr trivial)
  have hkept := Source.valid_askAll (Relays.shows_mirrored opener.config hshows hreach).ask calls
    (Relays.mirrored_initial opener.config content True hvalid)
  have hasked : asked = (⟨.memoryCached opener.config.memory chain, (({} : MemoryCache), state)⟩ :
      Layer η).askAll calls world' := by
    change (opener.openLayer locator world).1.askAll calls (opener.openLayer locator world).2 = _
    rw [hopen]
  rw [hasked]
  exact ⟨hrelays.trusts _ _ hkept.inner, hrelays.close _ _ hkept.inner⟩

/-- **Whatever was left behind can be trusted.** -/
theorem LeftBehind.sound {entry : CacheEntry} {storage : Storage}
    (h : LeftBehind entry content storage) :
    storage.Sound entry (· = content) ∧ storage.store? entry.key = none := by
  induction h with
  | nothing h => exact ⟨.inl h, h.closed⟩
  | layers before hhost hsteps ih =>
    have hstart : EntryUsers.Consistent entry (· = content) (fun _ => content) _ { world := _ } :=
      .nobody ⟨hhost, ih.1⟩ ih.2
    have hended := hstart.run (CacheEntry.single_eq content).apart _ hsteps fun _ _ _ _ _ => rfl
    exact ⟨hended.healthy.sound.forget, rfl⟩
  | @chain η opener transport locator start calls asked ended before hnetwork hpath husable
      htransport hdirectory hserves hasked hended ih =>
    have hentry (storage : Storage) (h : opener.config.Trusts locator content storage) :
        storage.Sound entry (· = content) := by
      have hsound := h entry.directory hdirectory
      rw [hpath] at hsound
      exact hsound
    have htrusts : opener.config.Trusts locator content start.storage := by
      intro directory hon
      rw [hdirectory] at hon
      cases hon
      rw [hpath]
      exact ih.1
    have hkept := opener.trusts_askAll hnetwork husable htransport hserves htrusts calls
    dsimp only at hkept
    rw [hasked] at hkept
    refine ⟨?_, rfl⟩
    rcases hended with rfl | rfl
    · exact (hentry _ hkept.1).forget
    · exact (hentry _ hkept.2).forget

/-- **A network chain whose transport recovers in time is transparent.**  Whatever is asked of it,
in whatever order, is answered as by the plain source of the content, and then it is identified as
that source. -/
theorem Opener.askAll_openLayer {opener : Opener η} {world : World η}
    (hnetwork : locator.isNetwork = true) (husable : opener.config.Usable)
    (htransport : opener.transport = some transport)
    (hserves : transport.Serves locator.path content content.length world.host)
    (hrelents : transport.Relents locator.path content opener.config.retry.attempts world.host)
    (hstorage : ∀ directory, opener.config.effectiveCacheDirectory = some directory →
      LeftBehind { directory, path := locator.path } content world.storage)
    (calls : List Call) :
    let opened := opener.openLayer locator world
    let asked := opened.1.askAll calls opened.2
    asked.1.1 = calls.map (Call.answer content) ∧
      (asked.1.2.identify asked.2).1.1 = (identify (Source.ofContent locator content) ()).1 := by
  obtain ⟨chain, state, world', block, Valid, hopen, hrelays, hvalid, -⟩ :=
    relays_openLayer hnetwork husable htransport hserves fun directory hon =>
      (hstorage directory hon).sound.1
  have hshows := Relays.shows_mirrored opener.config
    (hrelays.recovers world.host hserves hrelents) (Nat.min_le_right _ _)
  have hinitial := Relays.mirrored_initial opener.config content False hvalid
  have hkept := Source.valid_askAll hshows.ask calls hinitial
  rw [hopen]
  constructor
  · exact hshows.askAll_eq (Nat.le_refl _) calls hinitial
  · have hlocator : (Chain.memoryCached opener.config.memory chain).source.locator = locator := by
      rw [Chain.locator_source]
      exact hrelays.locator_eq
    have hidentify := ((hshows.alike (Nat.le_refl _)).alike_identify _ () hkept).1
    rw [hlocator] at hidentify
    exact hidentify

/-- Two failures in a row are one less than the standard configuration can hide.  They strike while a
store is opened for the blocks on disk. -/
theorem Opener.askAll_openLayer_two_failures :
    let locator := Locator.ofPath "http://host/game.bin"
    let opener : Opener (List Bool) :=
      { factories := {}, config := .standard "cache", transport := some (.planned [7, 8, 9] 3) }
    let opened := opener.openLayer locator { host := [true, true] }
    let asked := opened.1.askAll [.isPresent, .size, .readAt 1 5] opened.2
    opened.2.storage.stores.length = 1 ∧
      asked.1.1 = [.presence true, .length 3, .bytes [8, 9]] ∧
      (asked.1.2.identify asked.2).1.1 =
        (identify (Source.ofContent locator [7, 8, 9]) ()).1 := by
  intro locator opener
  have husable : opener.config.Usable := ⟨by decide, by decide, by decide⟩
  have hserves : (Transport.planned [7, 8, 9] 3).Serves locator.path [7, 8, 9] 3 [true, true] :=
    Transport.serves_planned _ _ _ _
  have hrelents : (Transport.planned [7, 8, 9] 3).Relents locator.path [7, 8, 9] 3 [true, true] :=
    Transport.relents_planned _ _ _ (by decide)
  have hempty : ({} : Storage).Untouched
      { directory := "cache/psp-loader/http", path := locator.path } :=
    ⟨rfl, by decide +kernel, by decide +kernel⟩
  have hstorage (directory : String)
      (hon : opener.config.effectiveCacheDirectory = some directory) :
      LeftBehind { directory, path := locator.path } [7, 8, 9] {} := by
    obtain rfl : "cache/psp-loader/http" = directory := Option.some.inj hon
    exact .nothing hempty
  have hrun := @askAll_openLayer _ _ locator [7, 8, 9] opener { host := [true, true] } rfl husable
    rfl hserves hrelents hstorage [.isPresent, .size, .readAt 1 5]
  exact ⟨by decide +kernel, hrun⟩

end PspBoot
