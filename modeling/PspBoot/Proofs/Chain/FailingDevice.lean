import PspBoot.Proofs.Chain.SharedEntry

/-!
# Layers on a device that may fail

An `EntryAttempt` is a step of the users of a cache entry with the fates of what it needs of the device;
with the usual fates it is the step (`attempt_usual`).  The invariant of a run (`Consistent`) is that the
entry is sound and that all layers which use its store agree with it about the size and their number.

Most failures do no harm.  A store that is not opened, a block or a sidecar that cannot be read and a
write of which nothing is done make the disk cache go to the layer behind it, and a sidecar that breaks
off lists nothing.  Two failures are worse when the path had another content before: after a block that
is left half written the store does not know that its sidecar is not up to date, and a sidecar that is
refused when the store is closed stays as it was.  In both cases the blocks of the other content are
listed although they have been overwritten.
-/

namespace PspBoot

variable {η : Type}

/-! ### Nothing fails -/

theorem Chain.sourceAs_usual (chain : Chain η) : chain.sourceAs (fun _ => {}) = chain.source := by
  cases chain with
  | diskCached key inner => exact DiskCache.diskCachedAs_usual key inner.source
  | _ => rfl

theorem DiskCache.closeAs_whole (key : Option FilePath.Key) :
    (DiskCache.closeAs .whole key : StateM (World η) Unit) = DiskCache.close key := by
  cases key with
  | none => rfl
  | some key => simp only [closeAs, close, Storage.releaseAs_whole]

theorem Chain.closeAs_whole (chain : Chain η) : chain.closeAs .whole = chain.close := by
  cases chain with
  | diskCached key inner => rw [Chain.closeAs, Chain.close, DiskCache.closeAs_whole]
  | _ => rfl

namespace Layer

theorem askAs_usual (layer : Layer η) (call : Call) :
    layer.askAs (fun _ => {}) call = layer.ask call := by
  rw [askAs, ask, Chain.sourceAs_usual]

theorem diskCachedAs_usual (layer : Layer η) (directory : String) :
    layer.diskCachedAs .usual directory = layer.diskCached (some directory) := by
  rw [diskCachedAs, DiskCache.openStoreAs_usual]
  rfl

theorem saveSidecarAs_whole (layer : Layer η) : layer.saveSidecarAs .whole = layer.saveSidecar := by
  obtain ⟨chain, state⟩ := layer
  cases chain with
  | diskCached key inner =>
    cases key with
    | none => rfl
    | some key =>
      simp only [saveSidecarAs, saveSidecar, DiskCache.saveSidecarAs, DiskCache.saveSidecar,
        Storage.saveSidecarAs_whole]
  | _ => rfl

theorem closeAs_whole (layer : Layer η) : layer.closeAs .whole = layer.close :=
  layer.chain.closeAs_whole

/-- To open a disk cached layer is to open a store for it. -/
theorem run_diskCachedAs (layer : Layer η) (fate : Storage.OpenFate) (directory : String)
    (world : World η) :
    layer.diskCachedAs fate directory world =
      (⟨.diskCached (DiskCache.openStoreAs fate directory layer.chain.source
          (layer.state, world)).1 layer.chain,
        (DiskCache.openStoreAs fate directory layer.chain.source (layer.state, world)).2.1⟩,
        (DiskCache.openStoreAs fate directory layer.chain.source (layer.state, world)).2.2) := rfl

/-- The reads that a disk cached layer makes of the layer behind it for one read of its own. -/
def innerReadsAs (fates : Nat → Storage.BlockFate) (layer : Layer η) (offset len : Nat)
    (world : World η) : List SourceRead :=
  match layer with
  | ⟨.diskCached key inner, state⟩ =>
      DiskCache.innerReadsAs fates key inner.source offset len (state, world)
  | _ => []

end Layer

/-! ### Attempts -/

/-- A step, and the fates of what it needs of the device: those of a store that is opened, of the blocks
that are read, and of a sidecar that is saved. -/
structure EntryAttempt (η : Type) where
  step : EntryStep η
  store : Storage.OpenFate := .usual
  blocks : Nat → Storage.BlockFate := fun _ => {}
  sidecar : FileTree.WriteFate := .whole

/-- No block is left half written, and no sidecar is refused with which a layer is closed. -/
def EntryAttempt.IsHarmless (next : EntryAttempt η) : Prop :=
  (∀ index, (next.blocks index).write.IsAtomic) ∧
    ∀ user, next.step = .close user → ∀ error, next.sidecar ≠ .refused error

/-- No layer is opened but for one size. -/
def EntryStep.Tells (size : Nat) : EntryStep η → Prop
  | .attach told _ => told = size
  | _ => True

namespace EntryUsers

/-- The open layers and the world after a step, whatever becomes of it. -/
def attempt (directory : String) (users : EntryUsers η) (next : EntryAttempt η) : EntryUsers η :=
  match next.step with
  | .attach size inner =>
      let opened := inner.diskCachedAs next.store directory users.world
      { world := opened.2, layers := users.layers ++ [(size, opened.1)] }
  | .ask user call =>
      match users.layers[user]? with
      | none => users
      | some (size, layer) =>
          let asked := layer.askAs next.blocks call users.world
          { world := asked.2, layers := users.layers.set user (size, asked.1.2) }
  | .saveSidecar user =>
      match users.layers[user]? with
      | none => users
      | some (_, layer) => { users with world := (layer.saveSidecarAs next.sidecar users.world).2 }
  | .close user =>
      match users.layers[user]? with
      | none => users
      | some (_, layer) =>
          { world := (layer.closeAs next.sidecar users.world).2
            layers := users.layers.eraseIdx user }

/-- The open layers and the world after several attempts. -/
def attemptAll (directory : String) (users : EntryUsers η) (attempts : List (EntryAttempt η)) :
    EntryUsers η :=
  attempts.foldl (attempt directory) users

/-- A step of which nothing fails. -/
theorem attempt_usual (directory : String) (users : EntryUsers η) (next : EntryStep η) :
    users.attempt directory { step := next } = users.step directory next := by
  unfold attempt step
  cases next with
  | attach size inner =>
    dsimp only
    rw [Layer.diskCachedAs_usual]
  | ask user call =>
    dsimp only
    cases users.layers[user]? with
    | none => rfl
    | some found =>
      dsimp only
      rw [Layer.askAs_usual]
  | saveSidecar user =>
    dsimp only
    cases users.layers[user]? with
    | none => rfl
    | some found =>
      dsimp only
      rw [Layer.saveSidecarAs_whole]
  | close user =>
    dsimp only
    cases users.layers[user]? with
    | none => rfl
    | some found =>
      dsimp only
      rw [Layer.closeAs_whole]

/-- A run of which nothing fails. -/
theorem attemptAll_usual (directory : String) (users : EntryUsers η) (steps : List (EntryStep η)) :
    users.attemptAll directory (steps.map fun next => { step := next }) =
      users.run directory steps := by
  rw [attemptAll, run, List.foldl_map]
  congr 1
  funext users next
  exact attempt_usual directory users next

end EntryUsers

/-- The host is as it has to be and the entry is sound. -/
structure World.Healthy (world : World η) (entry : CacheEntry) (known : Bytes → Prop)
    (J : η → Prop) : Prop where
  host : J world.host
  sound : world.storage.Sound entry known

/-- A disk cache around a chain that is trusted, with the store of the entry or with none. -/
inductive Cached (entry : CacheEntry) (content : Bytes) (J : η → Prop) : Layer η → Prop
  | around {key : Option FilePath.Key} {chain : Chain η} {P : chain.State → Prop}
      {state : chain.State} (hkey : key = none ∨ key = some entry.key)
      (h : chain.Trusted entry.path content P J) (hstate : P state) :
      Cached entry content J ⟨.diskCached key chain, state⟩

namespace Cached

variable {entry : CacheEntry} {known : Bytes → Prop} {content : Bytes} {J : η → Prop}
  {layer : Layer η} {world : World η}

/-- A disk cache is opened around a layer that is trusted, with a store that can be trusted or with
none. -/
theorem attach (h : layer.Trusted entry.path content J) (hapart : CacheEntry.Apart known)
    (hknown : known content) (hworld : world.Healthy entry known J) (fate : Storage.OpenFate) :
    let opened := layer.diskCachedAs fate entry.directory world
    J opened.2.host ∧ Cached entry content J opened.1 ∧
      ∃ key, opened.1.usesStore = key.isSome ∧
        Storage.Opened entry known content world.storage (key, opened.2.storage) := by
  obtain ⟨P, htrusted, hstate⟩ := h
  have hpath : layer.chain.source.locator.path = entry.path := by
    rw [Chain.locator_source]
    exact htrusted.path_eq
  obtain ⟨hvalid, hopened⟩ := DiskCache.storeOpened_openStoreAs entry (layer.state, world)
    htrusted.faithful hpath hapart hknown ⟨hstate, hworld.host⟩ hworld.sound fate
  rw [Layer.run_diskCachedAs]
  generalize DiskCache.openStoreAs fate entry.directory layer.chain.source (layer.state, world) =
    result at hvalid hopened
  obtain ⟨key, state, world'⟩ := result
  refine ⟨hvalid.2, .around ?_ htrusted hvalid.1, key, ?_, hopened⟩
  · rcases hopened.users with ⟨hkey, -⟩ | ⟨hkey, -⟩
    · exact .inl hkey
    · exact .inr hkey
  · cases key with
    | none => rfl
    | some key => rfl

/-- What is asked of the storage by a layer: if it uses the store of the entry, then the store is
in use for the content. -/
def Served (entry : CacheEntry) (content : Bytes) (layer : Layer η) (storage : Storage)
    (users : Nat) : Prop :=
  layer.usesStore = true → storage.usage entry = some (content.length, users)

/-- A question changes nothing of what the users of an entry rely on, if no block is left half
written or there is no other content. -/
theorem ask {users : Nat} (h : Cached entry content J layer) (hapart : CacheEntry.Apart known)
    (hknown : known content) (hworld : world.Healthy entry known J)
    (hserved : Served entry content layer world.storage users) {fates : Nat → Storage.BlockFate}
    (hfates : (∀ index, (fates index).write.IsAtomic) ∨ CacheEntry.Single known) (call : Call) :
    let asked := layer.askAs fates call world
    asked.2.Healthy entry known J ∧ asked.2.storage.usage entry = world.storage.usage entry ∧
      Cached entry content J asked.1.2 ∧ asked.1.2.usesStore = layer.usesStore := by
  obtain ⟨hkey, htrusted, hstate⟩ := h
  rename_i key chain P state
  rcases hkey with rfl | rfl
  · have hcacheable := htrusted.faithful.cacheable (fun _ _ => True) fun _ => trivial
    have hrun := hcacheable.ask_none world.storage call (state, world)
      ⟨⟨hstate, hworld.host⟩, rfl⟩
    obtain ⟨⟨hnext, hhost⟩, hstorage⟩ := hrun.valid
    refine ⟨⟨hhost, ?_⟩, ?_, .around (.inl rfl) htrusted hnext, rfl⟩
    · exact hstorage.symm ▸ hworld.sound
    · exact congrArg (Storage.usage · entry) hstorage
  · have husage := hserved rfl
    have hrun := htrusted.faithful.ask_some hapart hknown hfates call (state, world)
      ⟨⟨hstate, hworld.host⟩, hworld.sound, husage⟩
    obtain ⟨⟨hnext, hhost⟩, hinUse⟩ := hrun.valid
    refine ⟨⟨hhost, hinUse.sound⟩, ?_, .around (.inr rfl) htrusted hnext, rfl⟩
    rw [husage]
    exact hinUse.usage_eq

/-- A read delivers what the layer behind the disk cache delivers, whatever else fails. -/
theorem readAt {users : Nat} (h : Cached entry content J layer) (hapart : CacheEntry.Apart known)
    (hknown : known content) (hworld : world.Healthy entry known J)
    (hserved : Served entry content layer world.storage users) (fates : Nat → Storage.BlockFate)
    (offset len : Nat) :
    (layer.readAtAs fates offset len world).1.1 <+: Bytes.slice content offset len ∧
      ((∀ read ∈ layer.innerReadsAs fates offset len world, read.IsComplete content) →
        (layer.readAtAs fates offset len world).1.1 = Bytes.slice content offset len) := by
  obtain ⟨hkey, htrusted, hstate⟩ := h
  rename_i key chain P state
  have hvalid :
      P (DiskCache.aside.get (state, world)).1 ∧ J (DiskCache.aside.get (state, world)).2 :=
    ⟨hstate, hworld.host⟩
  have hstore : key = none ∨ key = some entry.key ∧
      (state, world).2.storage.Serving entry content := by
    rcases hkey with rfl | rfl
    · exact .inl rfl
    · have hinUse : world.storage.InUse entry known content users :=
        ⟨hworld.sound, hserved rfl⟩
      exact .inr ⟨rfl, hinUse.serving hapart hknown⟩
  exact DiskCache.readAtAs_spec htrusted.faithful hvalid hstore fates offset len

/-- Neither does it change anything to save the sidecar. -/
theorem saveSidecar {users : Nat} (h : Cached entry content J layer)
    (hworld : world.Healthy entry known J)
    (hserved : Served entry content layer world.storage users) (fate : FileTree.WriteFate) :
    let saved := (layer.saveSidecarAs fate world).2
    saved.Healthy entry known J ∧ saved.storage.usage entry = world.storage.usage entry := by
  obtain ⟨hkey, htrusted, hstate⟩ := h
  rcases hkey with rfl | rfl
  · exact ⟨hworld, rfl⟩
  · have husage := hserved rfl
    have hinUse : world.storage.InUse entry known content users := ⟨hworld.sound, husage⟩
    have hsaved := hinUse.saveSidecarAs fate
    refine ⟨⟨hworld.host, hsaved.sound⟩, ?_⟩
    rw [husage]
    exact hsaved.usage_eq

/-- A layer that is closed gives up its part in the store, and nothing else happens, if its sidecar is
not refused or there is no other content. -/
theorem close {users : Nat} (h : Cached entry content J layer)
    (hworld : world.Healthy entry known J)
    (hserved : Served entry content layer world.storage users) {fate : FileTree.WriteFate}
    (hfate : (∀ error, fate ≠ .refused error) ∨ CacheEntry.Single known) :
    let closed := (layer.closeAs fate world).2
    closed.Healthy entry known J ∧
      closed.storage.usage entry =
        if layer.usesStore then if 1 < users then some (content.length, users - 1) else none
        else world.storage.usage entry := by
  obtain ⟨hkey, htrusted, hstate⟩ := h
  rename_i key chain P state
  obtain ⟨hhost, hstorage⟩ := htrusted.close world hworld.host
  rcases hkey with rfl | rfl
  · show World.Healthy (chain.close world).2 entry known J ∧
      (chain.close world).2.storage.usage entry = world.storage.usage entry
    refine ⟨⟨hhost, ?_⟩, ?_⟩
    · rw [hstorage]
      exact hworld.sound
    · rw [hstorage]
  · have hinUse : world.storage.InUse entry known content users := ⟨hworld.sound, hserved rfl⟩
    have hrun : (Layer.closeAs fate ⟨.diskCached (some entry.key) chain, state⟩ world).2 =
        ⟨(chain.close world).2.storage.releaseAs fate entry.key, (chain.close world).2.host⟩ := rfl
    rw [hrun, hstorage]
    change World.Healthy _ entry known J ∧
      (world.storage.releaseAs fate entry.key).usage entry =
        if 1 < users then some (content.length, users - 1) else none
    by_cases husers : 1 < users
    · have hleft := hinUse.releaseAs_of_lt husers fate
      rw [if_pos husers]
      exact ⟨⟨hhost, hleft.sound⟩, hleft.usage_eq⟩
    · have hlast := hinUse.releaseAs_last (Nat.not_lt.mp husers) hfate
      rw [if_neg husers]
      exact ⟨⟨hhost, hlast.1⟩, hlast.2⟩

end Cached

/-! ### Runs -/

/-- The contents that a path may have, one for each size. -/
def OneOf (contents : Nat → Bytes) (content : Bytes) : Prop :=
  content = contents content.length

theorem apart_oneOf (contents : Nat → Bytes) : CacheEntry.Apart (OneOf contents) := by
  intro content other hcontent hother hlength
  rw [hcontent, hother, hlength]

theorem oneOf {contents : Nat → Bytes} {size : Nat} (h : (contents size).length = size) :
    OneOf contents (contents size) := by
  rw [OneOf, h]

namespace EntryUsers

variable {entry : CacheEntry} {known : Bytes → Prop} {contents : Nat → Bytes} {J : η → Prop}
  {users : EntryUsers η} {size user : Nat} {layer : Layer η}

/-- What holds of the users of an entry at any time. -/
structure Consistent (entry : CacheEntry) (known : Bytes → Prop) (contents : Nat → Bytes)
    (J : η → Prop) (users : EntryUsers η) : Prop where
  healthy : users.world.Healthy entry known J
  cached : ∀ user ∈ users.layers, known (contents user.1) ∧
    (contents user.1).length = user.1 ∧ Cached entry (contents user.1) J user.2
  shared : ∃ size, (∀ user ∈ users.layers, user.2.usesStore = true → user.1 = size) ∧
    users.world.storage.usage entry =
      if users.holders = 0 then none else some (size, users.holders)

/-- How many layers use the store, with one among them. -/
theorem holders_split (world : World η) (front back : List (Nat × Layer η))
    (user : Nat × Layer η) :
    holders ⟨world, front ++ user :: back⟩ =
      holders ⟨world, front ++ back⟩ + if user.2.usesStore then 1 else 0 := by
  rw [holders, holders, List.countP_append, List.countP_append, List.countP_cons]
  exact (Nat.add_assoc _ _ _).symm

namespace Consistent

/-- A layer that uses the store finds it in use by all that do. -/
theorem served (h : Consistent entry known contents J users) (hmem : (size, layer) ∈ users.layers) :
    Cached.Served entry (contents size) layer users.world.storage users.holders := by
  intro huses
  obtain ⟨shared, hsame, husage⟩ := h.shared
  have hsome : 0 < users.holders := List.countP_pos_iff.mpr ⟨_, hmem, huses⟩
  rw [husage, if_neg (Nat.ne_of_gt hsome), ← hsame _ hmem huses, (h.cached _ hmem).2.1]

variable {next : EntryAttempt η}

theorem attach (h : Consistent entry known contents J users) (hapart : CacheEntry.Apart known)
    {inner : Layer η} (hstep : next.step = .attach size inner) (hknown : known (contents size))
    (hinner : Allowed entry.path contents J next.step) :
    Consistent entry known contents J (users.attempt entry.directory next) := by
  rw [hstep] at hinner
  obtain ⟨hlength, htrusted⟩ := hinner
  obtain ⟨hhost, hcached, key, huses, hopened⟩ :=
    Cached.attach htrusted hapart hknown h.healthy next.store
  rw [attempt, hstep]
  dsimp only
  generalize inner.diskCachedAs next.store entry.directory users.world = opened
    at hhost hcached huses hopened
  obtain ⟨layer, world⟩ := opened
  have hcount : holders ⟨world, users.layers ++ [(size, layer)]⟩ =
      users.holders + if layer.usesStore then 1 else 0 := by
    rw [holders_split, List.append_nil]
    rfl
  have hall {p : Nat × Layer η → Prop} (hold : ∀ user ∈ users.layers, p user)
      (hnew : p (size, layer)) : ∀ user ∈ users.layers ++ [(size, layer)], p user :=
    List.forall_mem_append.mpr ⟨hold, List.forall_mem_singleton.mpr hnew⟩
  obtain ⟨shared, hsame, husage⟩ := h.shared
  refine ⟨⟨hhost, hopened.sound⟩, hall h.cached ⟨hknown, hlength, hcached⟩, ?_⟩
  rw [hcount]
  rcases hopened.users with ⟨rfl, hkept⟩ | ⟨rfl, ⟨hnone, hnew⟩ | ⟨n, hsome, hnew⟩⟩
  · -- The new layer has no store.
    have hunused : layer.usesStore = false := huses
    refine ⟨shared, hall hsame fun huser => ?_, ?_⟩
    · simp [hunused] at huser
    · rw [hunused]
      exact hkept.trans husage
  · -- Its store is a new one.
    have hzero : users.holders = 0 := by
      rw [husage] at hnone
      by_cases hzero : users.holders = 0
      · exact hzero
      · simp [if_neg hzero] at hnone
    have hused : layer.usesStore = true := huses
    refine ⟨size, hall (fun user hmem huser => ?_) fun _ => rfl, ?_⟩
    · exact absurd huser (List.countP_eq_zero.mp hzero user hmem)
    · rw [hused, hzero]
      rw [hlength] at hnew
      exact hnew
  · -- It shares the store of others.
    have hholders : users.holders ≠ 0 := by
      intro hzero
      simp [husage, if_pos hzero] at hsome
    have hused : layer.usesStore = true := huses
    rw [husage, if_neg hholders, hlength] at hsome
    obtain ⟨rfl, rfl⟩ := Prod.mk.inj (Option.some.inj hsome)
    refine ⟨shared, hall hsame fun _ => rfl, ?_⟩
    rw [hused]
    rw [hlength] at hnew
    exact hnew

theorem ask (h : Consistent entry known contents J users) (hapart : CacheEntry.Apart known)
    {call : Call} (hstep : next.step = .ask user call)
    (hfates : next.IsHarmless ∨ CacheEntry.Single known) :
    Consistent entry known contents J (users.attempt entry.directory next) := by
  rw [attempt, hstep]
  dsimp only
  cases hfound : users.layers[user]? with
  | none => exact h
  | some found =>
    obtain ⟨size, layer⟩ := found
    have hmem := List.mem_of_getElem? hfound
    obtain ⟨hknown, hlength, hcached⟩ := h.cached _ hmem
    obtain ⟨hhealthy, husage, hnext, huses⟩ := hcached.ask hapart hknown h.healthy (h.served hmem)
      (hfates.imp_left And.left) call
    dsimp only
    generalize layer.askAs next.blocks call users.world = asked at hhealthy husage hnext huses
    have hcount : holders ⟨asked.2, users.layers.set user (size, asked.1.2)⟩ = users.holders := by
      obtain ⟨front, back, hlayers, hset, -⟩ := exists_split hfound
      rw [hset, holders_split, huses, ← holders_split _ _ _ (size, layer), ← hlayers]
      rfl
    obtain ⟨shared, hsame, hshared⟩ := h.shared
    refine ⟨hhealthy, forall_set h.cached ⟨hknown, hlength, hnext⟩, shared,
      forall_set hsame fun huser => ?_, ?_⟩
    · have hold : size = shared := hsame (size, layer) hmem (huses ▸ huser)
      exact hold
    · rw [hcount]
      exact husage.trans hshared

theorem saveSidecar (h : Consistent entry known contents J users)
    (hstep : next.step = .saveSidecar user) :
    Consistent entry known contents J (users.attempt entry.directory next) := by
  rw [attempt, hstep]
  dsimp only
  cases hfound : users.layers[user]? with
  | none => exact h
  | some found =>
    obtain ⟨size, layer⟩ := found
    have hmem := List.mem_of_getElem? hfound
    obtain ⟨hhealthy, husage⟩ :=
      (h.cached _ hmem).2.2.saveSidecar h.healthy (h.served hmem) next.sidecar
    obtain ⟨shared, hsame, hshared⟩ := h.shared
    exact ⟨hhealthy, h.cached, shared, hsame, husage.trans hshared⟩

theorem close (h : Consistent entry known contents J users) (hstep : next.step = .close user)
    (hfates : next.IsHarmless ∨ CacheEntry.Single known) :
    Consistent entry known contents J (users.attempt entry.directory next) := by
  rw [attempt, hstep]
  dsimp only
  cases hfound : users.layers[user]? with
  | none => exact h
  | some found =>
    obtain ⟨size, layer⟩ := found
    have hmem := List.mem_of_getElem? hfound
    obtain ⟨-, hlength, hcached⟩ := h.cached _ hmem
    obtain ⟨hhealthy, husage⟩ := hcached.close h.healthy (h.served hmem)
      (hfates.imp_left fun hharmless => hharmless.2 user hstep)
    dsimp only
    generalize (layer.closeAs next.sidecar users.world).2 = world at hhealthy husage
    have hall {p : Nat × Layer η → Prop} (hold : ∀ user ∈ users.layers, p user) :
        ∀ found ∈ users.layers.eraseIdx user, p found :=
      fun found hmem => hold found (List.mem_of_mem_eraseIdx hmem)
    have hcount : users.holders = holders ⟨world, users.layers.eraseIdx user⟩ +
        if layer.usesStore then 1 else 0 := by
      obtain ⟨front, back, hlayers, -, herase⟩ := exists_split hfound
      rw [herase, ← holders_split world front back (size, layer), ← hlayers]
      rfl
    obtain ⟨shared, hsame, hshared⟩ := h.shared
    refine ⟨hhealthy, hall h.cached, shared, hall hsame, ?_⟩
    generalize users.layers.eraseIdx user = left at hcount ⊢
    rw [husage]
    by_cases huses : layer.usesStore = true
    · have hsize : size = shared := hsame _ hmem huses
      rw [if_pos huses] at hcount
      rw [if_pos huses, hlength, hsize, hcount, Nat.add_sub_cancel]
      by_cases hlast : holders ⟨world, left⟩ = 0
      · rw [if_pos hlast, if_neg (by omega)]
      · rw [if_neg hlast, if_pos (by omega)]
    · rw [if_neg huses, Nat.add_zero] at hcount
      rw [if_neg huses, hshared, hcount]

/-- **Every attempt keeps the entry consistent**, unless it does harm and the path may have had
another content. -/
theorem attempt (h : Consistent entry known contents J users) (hapart : CacheEntry.Apart known)
    (hallowed : Allowed entry.path contents J next.step)
    (hknown : ∀ size inner, next.step = .attach size inner → known (contents size))
    (hfates : next.IsHarmless ∨ CacheEntry.Single known) :
    Consistent entry known contents J (users.attempt entry.directory next) := by
  cases hstep : next.step with
  | attach size inner => exact h.attach hapart hstep (hknown size inner hstep) hallowed
  | ask user call => exact h.ask hapart hstep hfates
  | saveSidecar user => exact h.saveSidecar hstep
  | close user => exact h.close hstep hfates

/-- So does a run. -/
theorem attemptAll (h : Consistent entry known contents J users) (hapart : CacheEntry.Apart known)
    (attempts : List (EntryAttempt η))
    (hallowed : ∀ next ∈ attempts, Allowed entry.path contents J next.step)
    (hknown : ∀ next ∈ attempts, ∀ size inner, next.step = .attach size inner →
      known (contents size))
    (hfates : (∀ next ∈ attempts, next.IsHarmless) ∨ CacheEntry.Single known) :
    Consistent entry known contents J (users.attemptAll entry.directory attempts) := by
  induction attempts generalizing users with
  | nil => exact h
  | cons next attempts ih =>
    have hfirst := h.attempt hapart (hallowed next List.mem_cons_self)
      (hknown next List.mem_cons_self) (hfates.imp_left fun hall => hall next List.mem_cons_self)
    exact ih hfirst (fun other hother => hallowed other (List.mem_cons_of_mem _ hother))
      (fun other hother => hknown other (List.mem_cons_of_mem _ hother))
      (hfates.imp_left fun hall other hother => hall other (List.mem_cons_of_mem _ hother))

/-- And so does one of which nothing fails. -/
theorem run (h : Consistent entry known contents J users) (hapart : CacheEntry.Apart known)
    (steps : List (EntryStep η)) (hallowed : ∀ next ∈ steps, Allowed entry.path contents J next)
    (hknown : ∀ next ∈ steps, ∀ size inner, next = .attach size inner → known (contents size)) :
    Consistent entry known contents J (users.run entry.directory steps) := by
  rw [← attemptAll_usual]
  refine h.attemptAll hapart _ (List.forall_mem_map.mpr hallowed) (List.forall_mem_map.mpr hknown)
    (.inl fun next hnext => ?_)
  obtain ⟨step, -, rfl⟩ := List.mem_map.mp hnext
  exact ⟨fun _ => trivial, fun _ _ error hrefused => by cases hrefused⟩

/-- The users of an entry are consistent as long as there are none. -/
theorem nobody {world : World η} (h : world.Healthy entry known J)
    (hclosed : world.storage.store? entry.key = none) :
    Consistent entry known contents J { world } where
  healthy := h
  cached user hmem := by cases hmem
  shared := by
    refine ⟨0, ?_, ?_⟩
    · intro user hmem
      cases hmem
    change world.storage.usage entry = none
    rw [Storage.usage, hclosed]
    rfl

end Consistent

/-- **Disk caches on one entry pass on no wrong byte, unless a failure has done harm.**  Starting from an
entry that has never been used, whatever layers are opened, asked, saved and closed, and in whatever
order, every layer that is open then reads a beginning of what was asked for from the content of its
size, and all of it if the layer behind it left nothing out.  Whatever fails under this read, and
whatever has failed before, as long as no block was left half written and no sidecar was refused with
which a layer was closed; if all layers tell one size, that may have happened too. -/
theorem readAtAs_attemptAll (contents : Nat → Bytes) (J : η → Prop) {start : World η}
    (hhost : J start.host) (hnew : start.storage.Untouched entry)
    (attempts : List (EntryAttempt η))
    (hallowed : ∀ next ∈ attempts, Allowed entry.path contents J next.step)
    (hfates : (∀ next ∈ attempts, next.IsHarmless) ∨
      ∃ told, ∀ next ∈ attempts, next.step.Tells told)
    (hopen : (size, layer) ∈ (attemptAll entry.directory { world := start } attempts).layers)
    (fates : Nat → Storage.BlockFate) (offset len : Nat) :
    let world := (attemptAll entry.directory { world := start } attempts).world
    (layer.readAtAs fates offset len world).1.1 <+: Bytes.slice (contents size) offset len ∧
      ((∀ read ∈ layer.innerReadsAs fates offset len world, read.IsComplete (contents size)) →
        (layer.readAtAs fates offset len world).1.1 =
          Bytes.slice (contents size) offset len) := by
  have hsound {known : Bytes → Prop} : start.storage.Sound entry known := .inl hnew
  -- The contents that have to be told apart are those of the sizes that layers tell.
  obtain ⟨known, hapart, hknown, hharmless⟩ : ∃ known : Bytes → Prop, CacheEntry.Apart known ∧
      (∀ next ∈ attempts, ∀ size inner, next.step = .attach size inner → known (contents size)) ∧
      ((∀ next ∈ attempts, next.IsHarmless) ∨ CacheEntry.Single known) := by
    rcases hfates with hharmless | ⟨told, htold⟩
    · refine ⟨OneOf contents, apart_oneOf contents, fun next hnext size inner hstep => ?_,
        .inl hharmless⟩
      have hinner := hallowed next hnext
      rw [hstep] at hinner
      exact oneOf hinner.1
    · refine ⟨(· = contents told), (CacheEntry.single_eq _).apart,
        fun next hnext size inner hstep => ?_, .inr (CacheEntry.single_eq _)⟩
      have hsame := htold next hnext
      rw [hstep] at hsame
      exact congrArg contents hsame
  have hconsistent := (Consistent.nobody ⟨hhost, hsound⟩ hnew.closed).attemptAll hapart attempts
    hallowed hknown hharmless
  obtain ⟨hcontent, -, hcached⟩ := hconsistent.cached _ hopen
  exact hcached.readAt hapart hcontent hconsistent.healthy (hconsistent.served hopen) fates offset
    len

/-- The path has had two contents, a block could not be written at first, and the sidecar of the second
content breaks off. -/
theorem readAtAs_attemptAll_two_sizes :
    let entry : CacheEntry := { directory := "cache", path := "http://host/game" }
    let contents (size : Nat) : Bytes := if size = 2 then [9, 8] else [1, 2, 3]
    let inner (size : Nat) : Layer Unit :=
      .supplied (.ofContent (.ofPath entry.path) (contents size))
    let attempts : List (EntryAttempt Unit) :=
      [{ step := .attach 3 (inner 3) }, { step := .ask 0 (.readAt 0 3) }, { step := .close 0 },
        { step := .attach 2 (inner 2), store := .noSidecar },
        { step := .ask 0 (.readAt 0 2), blocks := fun _ => { write := .refused .noSpace } },
        { step := .ask 0 (.readAt 0 2) }, { step := .close 0, sidecar := .cut .noSpace 20 },
        { step := .attach 3 (inner 3) }]
    let users := attemptAll entry.directory { world := { host := () } } attempts
    (users.layers.map fun user => (user.1, user.2.usesStore)) = [(3, true)] ∧
      ∀ reader ∈ users.layers,
        (reader.2.readAtAs (fun _ => { write := .cut .noSpace 1 }) 0 3 users.world).1.1 =
          Bytes.slice (contents reader.1) 0 3 := by
  intro entry contents inner attempts users
  have hnew : ({} : Storage).Untouched entry := ⟨rfl, by decide +kernel, by decide +kernel⟩
  have hinner (size : Nat) (hlength : (contents size).length = size) :
      Allowed entry.path contents (fun _ => True) (.attach size (inner size)) :=
    ⟨hlength, Layer.trusted_supplied (Source.shows_ofContent _ _ 0)⟩
  have hallowed : ∀ next ∈ attempts, Allowed entry.path contents (fun _ => True) next.step := by
    intro next hnext
    simp only [attempts, List.mem_cons, List.not_mem_nil, or_false] at hnext
    rcases hnext with rfl | rfl | rfl | rfl | rfl | rfl | rfl | rfl
    · exact hinner 3 rfl
    · trivial
    · trivial
    · exact hinner 2 rfl
    · trivial
    · trivial
    · trivial
    · exact hinner 3 rfl
  have hharmless : ∀ next ∈ attempts, next.IsHarmless := by
    intro next hnext
    simp only [attempts, List.mem_cons, List.not_mem_nil, or_false] at hnext
    rcases hnext with rfl | rfl | rfl | rfl | rfl | rfl | rfl | rfl <;>
      exact ⟨fun _ => trivial, fun _ _ error hrefused => by cases hrefused⟩
  refine ⟨by decide +kernel, fun reader hreader => ?_⟩
  apply (readAtAs_attemptAll contents (fun _ => True) trivial hnew attempts hallowed
    (.inl hharmless) hreader _ 0 3).2
  have hcomplete : ∀ reader ∈ users.layers, ∀ read ∈ reader.2.innerReadsAs
      (fun _ => { write := .cut .noSpace 1 }) 0 3 users.world,
      read.IsComplete (contents reader.1) := by decide +kernel
  exact hcomplete reader hreader

/-- The sidecar of the second content is refused.  The first one is read again after two of its bytes
have been overwritten. -/
theorem readAtAs_attemptAll_refused :
    let entry : CacheEntry := { directory := "cache", path := "http://host/game" }
    let contents (size : Nat) : Bytes := if size = 2 then [9, 8] else [1, 2, 3]
    let inner (size : Nat) : Layer Unit :=
      .supplied (.ofContent (.ofPath entry.path) (contents size))
    let attempts : List (EntryAttempt Unit) :=
      [{ step := .attach 3 (inner 3) }, { step := .ask 0 (.readAt 0 3) }, { step := .close 0 },
        { step := .attach 2 (inner 2) }, { step := .ask 0 (.readAt 0 2) },
        { step := .close 0, sidecar := .refused .notFound }, { step := .attach 3 (inner 3) }]
    let users := attemptAll entry.directory { world := { host := () } } attempts
    (∀ next ∈ attempts, Allowed entry.path contents (fun _ => True) next.step) ∧
      (users.layers.map fun user =>
        (user.1, (user.2.readAtAs (fun _ => {}) 0 3 users.world).1.1)) = [(3, [9, 8, 3])] ∧
        ¬[9, 8, 3] <+: Bytes.slice (contents 3) 0 3 := by
  intro entry contents inner attempts users
  have hinner (size : Nat) (hlength : (contents size).length = size) :
      Allowed entry.path contents (fun _ => True) (.attach size (inner size)) :=
    ⟨hlength, Layer.trusted_supplied (Source.shows_ofContent _ _ 0)⟩
  refine ⟨?_, by decide +kernel, by decide⟩
  intro next hnext
  simp only [attempts, List.mem_cons, List.not_mem_nil, or_false] at hnext
  rcases hnext with rfl | rfl | rfl | rfl | rfl | rfl | rfl
  · exact hinner 3 rfl
  · trivial
  · trivial
  · exact hinner 2 rfl
  · trivial
  · trivial
  · exact hinner 3 rfl

/-- One of the two bytes of the second content is written before the device is full.  Nothing is known
to be unsaved then, so the sidecar stays that of the first content. -/
theorem readAtAs_attemptAll_half_written :
    let entry : CacheEntry := { directory := "cache", path := "http://host/game" }
    let contents (size : Nat) : Bytes := if size = 2 then [9, 8] else [1, 2, 3]
    let inner (size : Nat) : Layer Unit :=
      .supplied (.ofContent (.ofPath entry.path) (contents size))
    let users := attemptAll entry.directory { world := { host := () } }
      [{ step := .attach 3 (inner 3) }, { step := .ask 0 (.readAt 0 3) }, { step := .close 0 },
        { step := .attach 2 (inner 2) },
        { step := .ask 0 (.readAt 0 2), blocks := fun _ => { write := .cut .noSpace 1 } },
        { step := .close 0 }, { step := .attach 3 (inner 3) }]
    (users.layers.map fun user =>
      (user.1, (user.2.readAtAs (fun _ => {}) 0 3 users.world).1.1)) = [(3, [9, 2, 3])] := by
  decide +kernel

end EntryUsers

end PspBoot
