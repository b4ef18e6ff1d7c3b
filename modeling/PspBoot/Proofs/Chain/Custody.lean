import PspBoot.Proofs.Chain.SharedEntry

/-!
# Cache directories in custody

The layers that are open in a cache directory, for one path or for several, are its custodians.
Whatever property of the storage has its upkeep (`Storage.Upkeep`) is theirs to keep, as long as
each of them saves good blocks only and each store suits all layers that use it.

`Custody` is the invariant: the storage is kept, every layer may have a disk cache around it, and
the stores know their users.  Every step preserves it (`Custody.step`), where a step that opens a
layer must not find a store open that is for the same size but does not suit the layer
(`Admitted`).
-/

namespace PspBoot

variable {η : Type}

/-- The data file whose store a layer uses. -/
def Layer.storeKey? (layer : Layer η) : Option FilePath.Key :=
  match layer.chain with
  | .diskCached key _ => key
  | _ => none

/-- What is asked of a chain if its blocks are to be kept, for states of its own with `P` and states
of the host with `J`. -/
structure Chain.Cacheable (chain : Chain η) (total : Nat) (good : Nat → Bytes → Prop)
    (P : chain.State → Prop) (J : η → Prop) : Prop where
  cacheable : DiskCache.Cacheable chain.source total good fun r => P r.1 ∧ J r.2
  close : ∀ world, J world.host →
    J (chain.close world).2.host ∧ (chain.close world).2.storage = world.storage

/-- The same of a layer. -/
def Layer.Cacheable (layer : Layer η) (total : Nat) (good : Nat → Bytes → Prop)
    (J : η → Prop) : Prop :=
  ∃ P, layer.chain.Cacheable total good P J ∧ P layer.state

/-- The blocks of a layer that is trusted may be kept. -/
theorem Layer.Trusted.cacheable {layer : Layer η} {path : String} {content : Bytes} {J : η → Prop}
    (h : layer.Trusted path content J) (good : Nat → Bytes → Prop)
    (hgood : ∀ index, good index (BlockStore.blockOf content index)) :
    layer.Cacheable content.length good J := by
  obtain ⟨P, htrusted, hstate⟩ := h
  exact ⟨P, ⟨htrusted.faithful.cacheable good hgood, htrusted.close⟩, hstate⟩

/-- A disk cache in a directory around a chain whose blocks may be kept, with the store of its entry
or with none. -/
inductive Attached (directory : String) (total : Nat) (good : Nat → Bytes → Prop) (J : η → Prop) :
    Layer η → Prop
  | around {key : Option FilePath.Key} {chain : Chain η} {P : chain.State → Prop}
      {state : chain.State}
      (hkey : key = none ∨ key = some (CacheEntry.key { directory, path := chain.locator.path }))
      (h : chain.Cacheable total good P J) (hstate : P state) :
      Attached directory total good J ⟨.diskCached key chain, state⟩

namespace EntryUsers

variable {kept : Storage → Prop} {directory : String} {known : String → Nat → Prop}
  {good : String → Nat → Nat → Bytes → Prop} {J : η → Prop} {users : EntryUsers η}
  {size : Nat} {layer : Layer η}

/-- The number of open layers that use the store of a data file. -/
def usersOf (users : EntryUsers η) (key : FilePath.Key) : Nat :=
  users.layers.countP fun user => user.2.storeKey? = some key

theorem usersOf_append (world : World η) (front back : List (Nat × Layer η)) (key : FilePath.Key) :
    usersOf ⟨world, front ++ back⟩ key =
      usersOf ⟨world, front⟩ key + usersOf ⟨world, back⟩ key := by
  rw [usersOf, List.countP_append]
  rfl

theorem usersOf_cons (world : World η) (size : Nat) (layer : Layer η) (back : List (Nat × Layer η))
    (key : FilePath.Key) : usersOf ⟨world, (size, layer) :: back⟩ key =
      usersOf ⟨world, back⟩ key + if layer.storeKey? = some key then 1 else 0 := by
  rw [usersOf, List.countP_cons]
  simp only [decide_eq_true_eq]
  rfl

/-- The data file of an entry for a path that is known. -/
def Ours (directory : String) (known : String → Nat → Prop) (key : FilePath.Key) : Prop :=
  ∃ path size, known path size ∧ CacheEntry.key { directory, path } = key

/-- What holds of a cache directory at any time. -/
structure Custody (kept : Storage → Prop) (directory : String) (known : String → Nat → Prop)
    (good : String → Nat → Nat → Bytes → Prop) (J : η → Prop) (users : EntryUsers η) : Prop where
  host : J users.world.host
  kept : kept users.world.storage
  told : ∀ user ∈ users.layers, known user.2.locator.path user.1
  attached : ∀ user ∈ users.layers,
    Attached directory user.1 (good user.2.locator.path user.1) J user.2
  suited : ∀ user ∈ users.layers, ∀ key lease, user.2.storeKey? = some key →
    users.world.storage.lease? key = some lease → lease.Suits good user.2.locator.path user.1
  counted : ∀ key, Ours directory known key →
    users.usersOf key = (users.world.storage.lease? key).elim 0 Lease.holders
  held : ∀ key, Ours directory known key → ∀ lease,
    users.world.storage.lease? key = some lease → lease.holders ≠ 0

/-- What a step asks of the layer that it brings in, and of the store that may be open already. -/
def Admitted (directory : String) (known : String → Nat → Prop)
    (good : String → Nat → Nat → Bytes → Prop) (J : η → Prop) (users : EntryUsers η) :
    EntryStep η → Prop
  | .attach size inner =>
      known inner.locator.path size ∧ inner.Cacheable size (good inner.locator.path size) J ∧
        ∀ lease, users.world.storage.lease?
            (CacheEntry.key { directory, path := inner.locator.path }) = some lease →
          lease.size = size → lease.Suits good inner.locator.path size
  | _ => True

namespace Custody

/-- A layer only uses the store of its own entry. -/
theorem ours (h : Custody kept directory known good J users) (hmem : (size, layer) ∈ users.layers)
    {key : FilePath.Key} (huses : layer.storeKey? = some key) : Ours directory known key := by
  have hknown := h.told _ hmem
  obtain ⟨hkey, -, -⟩ := h.attached _ hmem
  rcases hkey with rfl | rfl
  · cases huses
  · exact ⟨_, _, hknown, Option.some.inj huses⟩

/-- A layer that uses a store has a lease that suits it. -/
theorem exists_lease (h : Custody kept directory known good J users)
    (hmem : (size, layer) ∈ users.layers) {key : FilePath.Key} (huses : layer.storeKey? = some key) :
    ∃ lease, users.world.storage.lease? key = some lease ∧
      lease.Suits good layer.locator.path size := by
  have hsome : 0 < users.usersOf key := by
    apply List.countP_pos_iff.mpr
    exact ⟨_, hmem, decide_eq_true huses⟩
  rw [h.counted key (h.ours hmem huses)] at hsome
  cases hlease : users.world.storage.lease? key with
  | none => simp [hlease] at hsome
  | some lease => exact ⟨lease, rfl, h.suited _ hmem key lease huses hlease⟩

/-- A store that is open has a user among the layers. -/
theorem exists_user (h : Custody kept directory known good J users) {key : FilePath.Key}
    (hours : Ours directory known key) {lease : Lease}
    (hlease : users.world.storage.lease? key = some lease) :
    ∃ (user size : Nat) (layer : Layer η),
      users.layers[user]? = some (size, layer) ∧ layer.storeKey? = some key := by
  have hcount := h.counted key hours
  rw [hlease, Option.elim_some] at hcount
  have hsome : 0 < users.usersOf key := hcount ▸ Nat.pos_of_ne_zero (h.held key hours lease hlease)
  obtain ⟨⟨size, layer⟩, hmem, huses⟩ := List.countP_pos_iff.mp hsome
  obtain ⟨user, hfound⟩ := List.getElem?_of_mem hmem
  exact ⟨user, size, layer, hfound, of_decide_eq_true huses⟩

/-- What is kept of the storage may be something else from now on. -/
theorem rekeep (h : Custody kept directory known good J users) {kept' : Storage → Prop}
    (hkept : kept' users.world.storage) : Custody kept' directory known good J users :=
  ⟨h.host, hkept, h.told, h.attached, h.suited, h.counted, h.held⟩

/-- One more layer is open, without a store. -/
theorem append_none (h : Custody kept directory known good J users) {world : World η}
    (hhost : J world.host) (hkept : kept world.storage)
    (hleases : world.storage.lease? = users.world.storage.lease?)
    (hknown : known layer.locator.path size)
    (hattached : Attached directory size (good layer.locator.path size) J layer)
    (hnone : layer.storeKey? = none) :
    Custody kept directory known good J ⟨world, users.layers ++ [(size, layer)]⟩ where
  host := hhost
  kept := hkept
  told := List.forall_mem_append.mpr ⟨h.told, List.forall_mem_singleton.mpr hknown⟩
  attached := List.forall_mem_append.mpr ⟨h.attached, List.forall_mem_singleton.mpr hattached⟩
  suited := by
    rw [hleases]
    refine List.forall_mem_append.mpr ⟨h.suited, List.forall_mem_singleton.mpr ?_⟩
    intro key lease huses
    rw [hnone] at huses
    cases huses
  counted key hours := by
    rw [hleases, ← h.counted key hours, usersOf_append, usersOf_cons, hnone, if_neg nofun]
    rfl
  held := by
    rw [hleases]
    exact h.held

/-- One more layer is open, with a store that may be open already. -/
theorem append_some (h : Custody kept directory known good J users) {world : World η}
    {entry : CacheEntry} {own : FilePath.Key} {lease : Lease} (hhost : J world.host)
    (hkept : kept world.storage) (hlease : Storage.Leased users.world.storage entry size lease)
    (hentry : entry.directory = directory) (hown : entry.key = own)
    (hleases : ∀ other, world.storage.lease? other =
      if other = own then some lease else users.world.storage.lease? other)
    (hpath : layer.locator.path = entry.path) (hknown : known entry.path size)
    (hattached : Attached directory size (good entry.path size) J layer)
    (hsome : layer.storeKey? = some own)
    (hsuits : ∀ old, users.world.storage.lease? own = some old → old.size = size →
      old.Suits good entry.path size) :
    Custody kept directory known good J ⟨world, users.layers ++ [(size, layer)]⟩ := by
  have hours : Ours directory known own := ⟨_, _, hknown, hentry ▸ hown⟩
  have hadded : users.usersOf own + 1 = lease.holders := by
    rw [h.counted own hours, ← hown, hlease.holders_eq]
  constructor
  case host => exact hhost
  case kept => exact hkept
  case told =>
    exact List.forall_mem_append.mpr ⟨h.told, List.forall_mem_singleton.mpr (hpath ▸ hknown)⟩
  case attached =>
    exact List.forall_mem_append.mpr
      ⟨h.attached, List.forall_mem_singleton.mpr (hpath ▸ hattached)⟩
  case suited =>
    refine List.forall_mem_append.mpr ⟨?_, List.forall_mem_singleton.mpr ?_⟩
    · intro user huser key found huses hfound
      rw [hleases] at hfound
      by_cases hsame : key = own
      · -- The others that use the store have found it open.
        rw [if_pos hsame] at hfound
        cases hfound
        obtain ⟨old, hold, hfits⟩ := h.exists_lease huser huses
        rw [hsame, ← hown] at hold
        exact hlease.suits_of_open hold hfits
      · rw [if_neg hsame] at hfound
        exact h.suited user huser key found huses hfound
    · intro key found huses hfound
      cases hsome.symm.trans huses
      rw [hleases, if_pos rfl] at hfound
      cases hfound
      rw [hpath]
      exact hlease.suits (hown ▸ hsuits)
  case counted =>
    intro key hkey
    rw [hleases, usersOf_append, usersOf_cons, hsome]
    by_cases hsame : key = own
    · rw [if_pos hsame, if_pos (congrArg some hsame.symm), hsame]
      exact hadded
    · rw [if_neg hsame, if_neg fun heq => hsame (Option.some.inj heq).symm, ← h.counted key hkey]
      rfl
  case held =>
    intro key hkey found hfound
    rw [hleases] at hfound
    by_cases hsame : key = own
    · rw [if_pos hsame] at hfound
      cases hfound
      rw [← hadded]
      exact Nat.succ_ne_zero _
    · rw [if_neg hsame] at hfound
      exact h.held key hkey found hfound

theorem attach (h : Custody kept directory known good J users)
    (hupkeep : Storage.Upkeep kept directory known good) {inner : Layer η}
    (hinner : Admitted directory known good J users (.attach size inner)) :
    Custody kept directory known good J (users.step directory (.attach size inner)) := by
  obtain ⟨hknown, ⟨P, hchain, hstate⟩, hadmits⟩ := hinner
  let entry : CacheEntry := { directory, path := inner.locator.path }
  have hV : P inner.state ∧ J users.world.host := ⟨hstate, h.host⟩
  have hopened := hchain.cacheable.openStore (s := (inner.state, users.world)) hV directory
  have hpath : inner.chain.source.locator.path = inner.locator.path := by
    rw [Chain.locator_source]
    rfl
  rw [hpath] at hopened
  change Custody kept directory known good J
    ⟨(DiskCache.openStore directory inner.chain.source (inner.state, users.world)).2.2,
      users.layers ++ [(size,
        ⟨.diskCached (DiskCache.openStore directory inner.chain.source
          (inner.state, users.world)).1 inner.chain,
        (DiskCache.openStore directory inner.chain.source (inner.state, users.world)).2.1⟩)]⟩
  generalize DiskCache.openStore directory inner.chain.source (inner.state, users.world) = result
    at hopened
  obtain ⟨key, state, world⟩ := result
  obtain ⟨⟨hnext, hhost⟩, hresult⟩ := hopened
  have hattached (hkey : key = none ∨ key = some entry.key) :
      Attached directory size (good inner.locator.path size) J ⟨.diskCached key inner.chain, state⟩ :=
    .around hkey hchain hnext
  rcases hresult with hrefused | hstored
  · have hkey : key = none := congrArg Prod.fst hrefused
    have hstorage : world.storage = users.world.storage := congrArg Prod.snd hrefused
    subst hkey
    exact h.append_none hhost (hstorage ▸ h.kept) (congrArg Storage.lease? hstorage) hknown
      (hattached (.inl rfl)) rfl
  · have hkey : key = (users.world.storage.openStore entry size).1 := congrArg Prod.fst hstored
    have hstorage : world.storage = (users.world.storage.openStore entry size).2 :=
      congrArg Prod.snd hstored
    have hkept := hupkeep.openStore h.kept hknown
    rw [← hstorage] at hkept
    rcases Storage.openStore_cases users.world.storage entry size with
      ⟨hnone, hleases⟩ | ⟨hsome, lease, hlease, hleases⟩
    · obtain rfl : key = none := hkey.trans hnone
      rw [← hstorage] at hleases
      exact h.append_none hhost hkept hleases hknown (hattached (.inl rfl)) rfl
    · obtain rfl : key = some entry.key := hkey.trans hsome
      rw [← hstorage] at hleases
      exact h.append_some hhost hkept hlease rfl rfl hleases rfl hknown (hattached (.inr rfl)) rfl hadmits

/-- A layer is asked something, and nothing else changes. -/
theorem replace (h : Custody kept directory known good J users) {user : Nat} {asked : Layer η}
    {world : World η} (hfound : users.layers[user]? = some (size, layer)) (hhost : J world.host)
    (hkept : kept world.storage) (hleases : world.storage.lease? = users.world.storage.lease?)
    (hlocator : asked.locator = layer.locator) (hkey : asked.storeKey? = layer.storeKey?)
    (hattached : Attached directory size (good layer.locator.path size) J asked) :
    Custody kept directory known good J ⟨world, users.layers.set user (size, asked)⟩ := by
  have hmem := List.mem_of_getElem? hfound
  obtain ⟨front, back, hlayers, hset, -⟩ := exists_split hfound
  constructor
  case host => exact hhost
  case kept => exact hkept
  case told =>
    apply forall_set h.told
    rw [hlocator]
    exact h.told _ hmem
  case attached =>
    apply forall_set h.attached
    rw [hlocator]
    exact hattached
  case suited =>
    rw [hleases]
    apply forall_set h.suited
    rw [hlocator, hkey]
    exact h.suited _ hmem
  case counted =>
    intro key hkeyOurs
    rw [hset, hleases, ← h.counted key hkeyOurs, usersOf_append, usersOf_cons, hkey, ← usersOf_cons,
      ← usersOf_append, ← hlayers]
    rfl
  case held =>
    rw [hleases]
    exact h.held

/-- A question to one layer keeps up what is kept, and whatever is known of the state of the chain. -/
theorem ask_chain (h : Custody kept directory known good J users)
    (hupkeep : Storage.Upkeep kept directory known good) {key : Option FilePath.Key}
    {chain : Chain η} {state : chain.State} {P : chain.State → Prop}
    (hmem : (size, ⟨.diskCached key chain, state⟩) ∈ users.layers)
    (hchain : DiskCache.Cacheable chain.source size (good chain.locator.path size)
      fun r => P r.1 ∧ J r.2) (hstate : P state) (call : Call) :
    let asked := (chain.source.diskCached key).ask call (state, users.world)
    (P asked.2.1 ∧ J asked.2.2.host) ∧ kept asked.2.2.storage ∧
      asked.2.2.storage.lease? = users.world.storage.lease? := by
  have hV : P state ∧ J users.world.host := ⟨hstate, h.host⟩
  have hattached := h.attached _ hmem
  have hlease {own : FilePath.Key} (huses : key = some own) := h.exists_lease hmem huses
  obtain ⟨hkey, -, -⟩ := hattached
  rcases hkey with rfl | rfl
  · have hrun := hchain.ask_none users.world.storage call (state, users.world) ⟨hV, rfl⟩
    exact ⟨hrun.valid.1, hrun.valid.2.symm ▸ h.kept, congrArg Storage.lease? hrun.valid.2⟩
  · obtain ⟨lease, hopen, hsuits⟩ := hlease rfl
    have hrun := hchain.ask_some hupkeep (h.told _ hmem) hopen hsuits call (state, users.world)
      ⟨hV, h.kept, rfl⟩
    exact hrun.valid

/-- A question to one layer. -/
theorem ask_layer (h : Custody kept directory known good J users)
    (hupkeep : Storage.Upkeep kept directory known good) (hmem : (size, layer) ∈ users.layers)
    (call : Call) :
    let asked := layer.ask call users.world
    J asked.2.host ∧ kept asked.2.storage ∧
      asked.2.storage.lease? = users.world.storage.lease? ∧
        asked.1.2.locator = layer.locator ∧ asked.1.2.storeKey? = layer.storeKey? ∧
          Attached directory size (good layer.locator.path size) J asked.1.2 := by
  obtain ⟨hkey, hchain, hstate⟩ := h.attached _ hmem
  obtain ⟨⟨hnext, hhost⟩, hkept, hleases⟩ :=
    h.ask_chain hupkeep hmem hchain.cacheable hstate call
  exact ⟨hhost, hkept, hleases, rfl, rfl, .around hkey hchain hnext⟩

theorem ask (h : Custody kept directory known good J users)
    (hupkeep : Storage.Upkeep kept directory known good) (user : Nat) (call : Call) :
    Custody kept directory known good J (users.step directory (.ask user call)) := by
  rw [EntryUsers.step]
  cases hfound : users.layers[user]? with
  | none => exact h
  | some found =>
    obtain ⟨size, layer⟩ := found
    obtain ⟨hhost, hkept, hleases, hlocator, hkey, hattached⟩ :=
      h.ask_layer hupkeep (List.mem_of_getElem? hfound) call
    exact h.replace hfound hhost hkept hleases hlocator hkey hattached

theorem saveSidecar (h : Custody kept directory known good J users)
    (hupkeep : Storage.Upkeep kept directory known good) (user : Nat) :
    Custody kept directory known good J (users.step directory (.saveSidecar user)) := by
  rw [EntryUsers.step]
  cases hfound : users.layers[user]? with
  | none => exact h
  | some found =>
    obtain ⟨size, layer⟩ := found
    have hmem := List.mem_of_getElem? hfound
    have hknown := h.told _ hmem
    have hattached := h.attached _ hmem
    obtain ⟨hkey, hchain, hstate⟩ := hattached
    rcases hkey with rfl | rfl
    · exact h
    · have hleases := Storage.lease?_saveSidecar users.world.storage
      constructor
      case host => exact h.host
      case kept => exact hupkeep.saveSidecar h.kept hknown
      case told => exact h.told
      case attached => exact h.attached
      case suited =>
        intro user huser key lease huses hopen
        exact h.suited user huser key lease huses ((congrFun (hleases _) key).symm.trans hopen)
      case counted =>
        intro key hours
        exact (h.counted key hours).trans
          (congrArg (Option.elim · 0 Lease.holders) (congrFun (hleases _) key).symm)
      case held =>
        intro key hours lease hopen
        exact h.held key hours lease ((congrFun (hleases _) key).symm.trans hopen)

/-- What is left of a layer that is closed is the lease of the others. -/
theorem close_layer (h : Custody kept directory known good J users)
    (hupkeep : Storage.Upkeep kept directory known good) (hmem : (size, layer) ∈ users.layers) :
    let closed := (layer.close users.world).2
    J closed.host ∧ kept closed.storage ∧ ∀ other, closed.storage.lease? other =
      if layer.storeKey? = some other then (users.world.storage.lease? other).bind Lease.giveUp
      else users.world.storage.lease? other := by
  have hknown := h.told _ hmem
  obtain ⟨hkey, hchain, hstate⟩ := h.attached _ hmem
  rename_i key chain P state
  obtain ⟨hhost, hstorage⟩ := hchain.close users.world h.host
  rcases hkey with rfl | rfl
  · change J (chain.close users.world).2.host ∧ kept (chain.close users.world).2.storage ∧
      ∀ other, (chain.close users.world).2.storage.lease? other = _
    rw [hstorage]
    refine ⟨hhost, h.kept, fun other => ?_⟩
    rw [if_neg (by simp [Layer.storeKey?])]
  · obtain ⟨own, hown⟩ :
        ∃ own, CacheEntry.key { directory, path := chain.locator.path } = own := ⟨_, rfl⟩
    have hreleased : kept (users.world.storage.release own) := hown ▸ hupkeep.release h.kept hknown
    have hrun : (Layer.close ⟨.diskCached (some own) chain, state⟩ users.world).2 =
        ⟨(chain.close users.world).2.storage.release own, (chain.close users.world).2.host⟩ := rfl
    rw [hown, hrun, hstorage]
    refine ⟨hhost, hreleased, fun other => ?_⟩
    rw [Storage.lease?_release]
    change _ = if some own = some other then _ else _
    by_cases hsame : other = own
    · rw [if_pos hsame, if_pos (congrArg some hsame.symm), hsame]
    · rw [if_neg hsame, if_neg]
      exact fun huses => hsame (Option.some.inj huses).symm

theorem close (h : Custody kept directory known good J users)
    (hupkeep : Storage.Upkeep kept directory known good) (user : Nat) :
    Custody kept directory known good J (users.step directory (.close user)) := by
  rw [EntryUsers.step]
  cases hfound : users.layers[user]? with
  | none => exact h
  | some found =>
    obtain ⟨size, layer⟩ := found
    have hmem := List.mem_of_getElem? hfound
    obtain ⟨hhost, hkept, hleases⟩ := h.close_layer hupkeep hmem
    dsimp only
    generalize (layer.close users.world).2 = world at hhost hkept hleases
    obtain ⟨front, back, hlayers, -, herase⟩ := exists_split hfound
    rw [herase]
    have hall {p : Nat × Layer η → Prop} (hold : ∀ user ∈ users.layers, p user) :
        ∀ user ∈ front ++ back, p user := by
      rw [hlayers, List.forall_mem_append, List.forall_mem_cons] at hold
      exact List.forall_mem_append.mpr ⟨hold.1, hold.2.2⟩
    have hcount (key : FilePath.Key) : users.usersOf key =
        usersOf ⟨world, front ++ back⟩ key + if layer.storeKey? = some key then 1 else 0 := by
      rw [usersOf_append, Nat.add_assoc, ← usersOf_cons, ← usersOf_append, ← hlayers]
      rfl
    constructor
    case host => exact hhost
    case kept => exact hkept
    case told => exact hall h.told
    case attached => exact hall h.attached
    case suited =>
      apply hall
      intro user huser key lease huses hopen
      rw [hleases] at hopen
      split at hopen
      · obtain ⟨old, hold, hgiven⟩ := Option.bind_eq_some_iff.mp hopen
        exact (h.suited user huser key old huses hold).giveUp hgiven
      · exact h.suited user huser key lease huses hopen
    case counted =>
      intro key hours
      have hold := h.counted key hours
      rw [hcount key] at hold
      rw [hleases]
      by_cases huses : layer.storeKey? = some key
      · rw [if_pos huses] at hold ⊢
        cases hlease : users.world.storage.lease? key with
        | none => simp [hlease] at hold
        | some lease =>
          rw [hlease, Option.elim_some] at hold
          rw [Option.bind_some, Lease.holders_giveUp, ← hold, Nat.add_sub_cancel]
      · rw [if_neg huses] at hold ⊢
        exact hold
    case held =>
      intro key hours lease hopen
      rw [hleases] at hopen
      split at hopen
      · obtain ⟨old, -, hgiven⟩ := Option.bind_eq_some_iff.mp hopen
        exact Lease.holders_ne_zero_of_giveUp hgiven
      · exact h.held key hours lease hopen

/-- **Every step keeps the directory in custody.** -/
theorem step (h : Custody kept directory known good J users)
    (hupkeep : Storage.Upkeep kept directory known good) (next : EntryStep η)
    (hnext : Admitted directory known good J users next) :
    Custody kept directory known good J (users.step directory next) := by
  cases next with
  | attach size inner => exact h.attach hupkeep hnext
  | ask user call => exact h.ask hupkeep user call
  | saveSidecar user => exact h.saveSidecar hupkeep user
  | close user => exact h.close hupkeep user

/-- So does a run of which every step is admitted when its turn comes. -/
theorem run (h : Custody kept directory known good J users)
    (hupkeep : Storage.Upkeep kept directory known good) (steps : List (EntryStep η))
    (hsteps : ∀ before next after, steps = before ++ next :: after →
      Admitted directory known good J (users.run directory before) next) :
    Custody kept directory known good J (users.run directory steps) := by
  induction steps generalizing users with
  | nil => exact h
  | cons next steps ih =>
    have hfirst := h.step hupkeep next (hsteps [] next steps rfl)
    apply ih hfirst
    intro before later after heq
    exact hsteps (next :: before) later after (by rw [heq, List.cons_append])

/-- With the last layer the last store is closed. -/
theorem closed (h : Custody kept directory known good J users) (hnone : users.layers = [])
    {key : FilePath.Key} (hours : Ours directory known key) :
    users.world.storage.store? key = none := by
  have hcount := h.counted key hours
  rw [usersOf, hnone, List.countP_nil] at hcount
  cases hlease : users.world.storage.lease? key with
  | none => exact Option.map_eq_none_iff.mp hlease
  | some lease =>
    rw [hlease] at hcount
    exact absurd hcount.symm (h.held key hours lease hlease)

/-- Nobody has to do anything as long as no layer and no store is open. -/
theorem nobody {world : World η} (hhost : J world.host) (hkept : kept world.storage)
    (hclosed : ∀ key, Ours directory known key → world.storage.store? key = none) :
    Custody kept directory known good J { world } where
  host := hhost
  kept := hkept
  told user hmem := by cases hmem
  attached user hmem := by cases hmem
  suited user hmem := by cases hmem
  counted key hours := by
    rw [Storage.lease?, hclosed key hours]
    rfl
  held key hours lease hopen := by
    rw [Storage.lease?, hclosed key hours] at hopen
    cases hopen

end Custody

end EntryUsers

end PspBoot
