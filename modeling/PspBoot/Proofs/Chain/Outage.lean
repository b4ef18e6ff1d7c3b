import PspBoot.Proofs.Chain.Transparency

/-!
# Network chains after an outage

While the transport fails for longer than the retries last, a network chain has to do without
answers.  Almost nothing of that is remembered: once the transport is back the chain answers as
ever.  The one exception is the size in the memory cache.  If it was asked for during the outage,
the cache has remembered that the size is zero, and goes on to say so (`Opener.recovers_iff`).
-/

namespace PspBoot

variable {η : Type} {transport : Transport η} {locator : Locator} {content : Bytes}

/-- The size that the outermost memory cache remembers. -/
def Layer.sizeInMemory? (layer : Layer η) : Option Nat :=
  match layer with
  | ⟨.memoryCached _ _, (cache, _)⟩ => cache.rememberedSize
  | _ => none

/-- A memory cache that remembers a size asks for it no more. -/
theorem Layer.ask_size_of_sizeInMemory? {layer : Layer η} {n : Nat}
    (h : layer.sizeInMemory? = some n) (world : World η) :
    (layer.ask .size world).1.1 = .length n := by
  match layer with
  | ⟨.memoryCached policy inner, ⟨⟨remembered, blocks, clock⟩, state⟩⟩ =>
    cases h
    rfl
  | ⟨.supplied _, _⟩ | ⟨.localFile _ _, _⟩ | ⟨.remote _ _, _⟩ | ⟨.retrying _ _, _⟩
  | ⟨.diskCached _ _, _⟩ => cases h

/-- What is in the memory cache after an outage is right, but for a size of zero. -/
theorem Relays.Mirrored.recover {config : Config} {chain : Chain η}
    {V V' : chain.State × World η → Prop} {s : (MemoryCache × chain.State) × World η}
    (h : Relays.Mirrored config content V True s) (hinner : V' (Chain.onCache.get s).2)
    (hsize : content.length = 0 ∨ s.1.1.rememberedSize ≠ some 0) :
    Relays.Mirrored config content V' False s where
  inner := hinner
  size n hn := by
    rcases h.size n hn with hlength | ⟨rfl, -⟩
    · exact .inl hlength
    · rcases hsize with hempty | hknown
      · exact .inl hempty.symm
      · exact absurd hn hknown
  blocks := h.blocks

/-- **A network chain recovers from an outage** exactly if its memory cache does not remember a size
of zero for a content that is not empty.  During the calls the transport may fail as often as it
likes; behind them it fails less often in a row than there are attempts. -/
theorem Opener.recovers_iff {opener : Opener η} {world : World η}
    (hnetwork : locator.isNetwork = true) (husable : opener.config.Usable)
    (htransport : opener.transport = some transport)
    (hserves : transport.Serves locator.path content content.length world.host)
    (hstorage : ∀ directory, opener.config.effectiveCacheDirectory = some directory →
      LeftBehind { directory, path := locator.path } content world.storage)
    (calls : List Call)
    (hrelents : transport.Relents locator.path content opener.config.retry.attempts
      ((opener.openLayer locator world).1.askAll calls
        (opener.openLayer locator world).2).2.host) :
    let opened := opener.openLayer locator world
    let asked := opened.1.askAll calls opened.2
    (∀ later, (asked.1.2.askAll later asked.2).1.1 = later.map (Call.answer content)) ↔
      content.length = 0 ∨ asked.1.2.sizeInMemory? ≠ some 0 := by
  obtain ⟨chain, state, world', block, Valid, hopen, hrelays, hvalid, -⟩ :=
    relays_openLayer hnetwork husable htransport hserves fun directory hon =>
      (hstorage directory hon).sound.1
  rw [hopen] at hrelents ⊢
  obtain ⟨reach, hreach, hshows⟩ :=
    hrelays.shows world.host content.length True hserves (.inr trivial) (.inr trivial)
  have hkept := Source.valid_askAll (Relays.shows_mirrored opener.config hshows hreach).ask calls
    (Relays.mirrored_initial opener.config content True hvalid)
  intro opened asked
  constructor
  · intro hright
    by_cases hempty : content.length = 0
    · exact .inl hempty
    · right
      intro hzero
      have hsize := hright [.size]
      have hasked := Layer.ask_size_of_sizeInMemory? hzero asked.2
      have hlength : Answer.length 0 = .length content.length :=
        hasked.symm.trans (List.cons.inj hsize).1
      exact hempty (Answer.length.inj hlength).symm
  · intro hsize later
    obtain ⟨k, hreaches⟩ := hrelays.reaches _ _ hkept.inner
    have hrecovered := Relays.Mirrored.recover hkept (hrelays.restart _ _ hkept.inner) hsize
    have hagain := Relays.shows_mirrored opener.config
      (hrelays.recovers _ (hserves.later hreaches) hrelents) (Nat.min_le_right _ _)
    exact hagain.askAll_eq (Nat.le_refl _) later hrecovered

/-- To ask whether the resource is there does no harm during an outage. -/
theorem Opener.recovers_after_isPresent :
    let opener : Opener (List Bool) :=
      { factories := {}, config := { Config.standard "/cache" with headless := true }
        transport := some (.planned [7, 8, 9] 3) }
    let opened := opener.openLayer (.ofPath "http://host/game.bin") { host := [true, true, true] }
    let asked := opened.1.askAll [.isPresent] opened.2
    asked.1.1 = [.presence false] ∧
      (asked.1.2.askAll [.size, .readAt 0 2] asked.2).1.1 = [.length 3, .bytes [7, 8]] := by
  intro opener opened asked
  have husable : opener.config.Usable := ⟨by decide, by decide, by decide⟩
  have hserves : (Transport.planned [7, 8, 9] 3).Serves "http://host/game.bin" [7, 8, 9] 3
      [true, true, true] := Transport.serves_planned _ _ _ _
  have hrelents : (Transport.planned [7, 8, 9] 3).Relents "http://host/game.bin" [7, 8, 9] 3
      asked.2.host := Transport.relents_planned _ _ _ (by decide)
  have hrun := @recovers_iff _ _ (.ofPath "http://host/game.bin") [7, 8, 9] opener
    { host := [true, true, true] } rfl husable rfl hserves (fun _ hon => by cases hon) [.isPresent]
    hrelents
  exact ⟨rfl, hrun.mpr (.inr (by decide)) [.size, .readAt 0 2]⟩

/-- To ask for the size does.  Three failures outlast the retries, and a resource of three bytes is
empty from then on, though it is known to be there. -/
theorem Opener.not_recovers_after_size :
    let opener : Opener (List Bool) :=
      { factories := {}, config := { Config.standard "/cache" with headless := true }
        transport := some (.planned [7, 8, 9] 3) }
    let opened := opener.openLayer (.ofPath "http://host/game.bin") { host := [true, true, true] }
    let asked := opened.1.askAll [.size] opened.2
    asked.2.host = [] ∧
      (asked.1.2.askAll [.isPresent, .size, .readAt 0 2] asked.2).1.1 =
        [.presence true, .length 0, .bytes []] := by
  decide +kernel

end PspBoot
