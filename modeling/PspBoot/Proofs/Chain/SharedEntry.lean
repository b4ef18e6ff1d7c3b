import PspBoot.Chain.Basic
import PspBoot.Proofs.Source.Recorded

/-!
# Layers that share a cache entry

Several disk cached layers for one path may be open in one cache directory at the same time, and
more after them.  An `EntryUsers` is a world with the layers that are open in it, and an
`EntryStep` is what may be done to it: another layer is opened, or one of them is asked something,
has its sidecar saved or is closed.

The contents that the path has had are told apart by their sizes, so `contents size` is the content
of every layer that tells the size `size`.  A layer which is brought in has to show that content to
the disk cache that is put around it (`Trusted`, `Allowed`).
-/

namespace PspBoot

variable {η : Type}

/-- The reads that a disk cached layer makes of the layer behind it for one read of its own. -/
def Layer.innerReads (layer : Layer η) (offset len : Nat) (world : World η) : List SourceRead :=
  match layer with
  | ⟨.diskCached key inner, state⟩ => DiskCache.innerReads key inner.source offset len (state, world)
  | _ => []

/-- To open a disk cached layer is to open a store for it. -/
theorem Layer.run_diskCached (layer : Layer η) (directory : String) (world : World η) :
    layer.diskCached (some directory) world =
      (⟨.diskCached (DiskCache.openStore directory layer.chain.source (layer.state, world)).1
          layer.chain,
        (DiskCache.openStore directory layer.chain.source (layer.state, world)).2.1⟩,
        (DiskCache.openStore directory layer.chain.source (layer.state, world)).2.2) := rfl

/-- Open layers, each with the size that it tells. -/
structure EntryUsers (η : Type) where
  world : World η
  layers : List (Nat × Layer η) := []

/-- What may be done with open layers. -/
inductive EntryStep (η : Type) where
  /-- Puts a disk cache around a layer that tells the given size. -/
  | attach (size : Nat) (inner : Layer η)
  | ask (user : Nat) (call : Call)
  | saveSidecar (user : Nat)
  | close (user : Nat)

namespace EntryUsers

/-- The open layers and the world after one step, in a cache directory. -/
def step (directory : String) (users : EntryUsers η) : EntryStep η → EntryUsers η
  | .attach size inner =>
      let opened := inner.diskCached (some directory) users.world
      { world := opened.2, layers := users.layers ++ [(size, opened.1)] }
  | .ask user call =>
      match users.layers[user]? with
      | none => users
      | some (size, layer) =>
          let asked := layer.ask call users.world
          { world := asked.2, layers := users.layers.set user (size, asked.1.2) }
  | .saveSidecar user =>
      match users.layers[user]? with
      | none => users
      | some (_, layer) => { users with world := (layer.saveSidecar users.world).2 }
  | .close user =>
      match users.layers[user]? with
      | none => users
      | some (_, layer) =>
          { world := (layer.close users.world).2, layers := users.layers.eraseIdx user }

/-- The open layers and the world after several steps. -/
def run (directory : String) (users : EntryUsers η) (steps : List (EntryStep η)) : EntryUsers η :=
  steps.foldl (step directory) users

theorem run_append (directory : String) (users : EntryUsers η) (before after : List (EntryStep η)) :
    users.run directory (before ++ after) = (users.run directory before).run directory after :=
  List.foldl_append

/-- What holds of all open layers holds after a step, if it holds of a layer that is opened and of one
that is asked. -/
theorem step_forall_layers {directory : String} {users : EntryUsers η} {p : Layer η → Prop}
    (h : ∀ user ∈ users.layers, p user.2) {next : EntryStep η}
    (hattach : ∀ size inner, next = .attach size inner →
      p (inner.diskCached (some directory) users.world).1)
    (hask : ∀ call size layer, (size, layer) ∈ users.layers → p (layer.ask call users.world).1.2) :
    ∀ user ∈ (users.step directory next).layers, p user.2 := by
  cases next with
  | attach size inner =>
    exact List.forall_mem_append.mpr ⟨h, List.forall_mem_singleton.mpr (hattach size inner rfl)⟩
  | ask user call =>
    rw [EntryUsers.step]
    cases hfound : users.layers[user]? with
    | none => exact h
    | some found =>
      obtain ⟨size, layer⟩ := found
      intro other hother
      rcases List.mem_or_eq_of_mem_set hother with hold | rfl
      · exact h other hold
      · exact hask call size layer (List.mem_of_getElem? hfound)
  | saveSidecar user =>
    rw [EntryUsers.step]
    cases users.layers[user]? with
    | none => exact h
    | some found => exact h
  | close user =>
    rw [EntryUsers.step]
    cases users.layers[user]? with
    | none => exact h
    | some found => exact fun other hother => h other (List.mem_of_mem_eraseIdx hother)

/-- The number of open layers that use the store. -/
def holders (users : EntryUsers η) : Nat :=
  users.layers.countP (·.2.usesStore)

end EntryUsers

/-! ### Layers -/

/-- What is asked of a chain if a disk cache is to be put around it, for states of its own with
`P` and states of the host with `J`. -/
structure Chain.Trusted (chain : Chain η) (path : String) (content : Bytes)
    (P : chain.State → Prop) (J : η → Prop) : Prop where
  path_eq : chain.locator.path = path
  faithful : DiskCache.Faithful chain.source content fun r => P r.1 ∧ J r.2
  close : ∀ world, J world.host →
    J (chain.close world).2.host ∧ (chain.close world).2.storage = world.storage

/-- The same of a layer. -/
def Layer.Trusted (layer : Layer η) (path : String) (content : Bytes) (J : η → Prop) : Prop :=
  ∃ P, layer.chain.Trusted path content P J ∧ P layer.state

/-- What is asked of a chain in addition if no read may fail. -/
structure Chain.Faultless (chain : Chain η) (path : String) (content : Bytes)
    (P : chain.State → Prop) (J : η → Prop) : Prop where
  path_eq : chain.locator.path = path
  shows : DiskCache.ShowsAside chain.source content content.length (fun r => P r.1 ∧ J r.2)
    fun _ => False
  close : ∀ world, J world.host →
    J (chain.close world).2.host ∧ (chain.close world).2.storage = world.storage

theorem Chain.Faultless.trusted {chain : Chain η} {path : String} {content : Bytes}
    {P : chain.State → Prop} {J : η → Prop} (h : chain.Faultless path content P J) :
    chain.Trusted path content P J :=
  ⟨h.path_eq, h.shows.faithful, h.close⟩

/-- The same of a layer. -/
def Layer.Faultless (layer : Layer η) (path : String) (content : Bytes) (J : η → Prop) : Prop :=
  ∃ P, layer.chain.Faultless path content P J ∧ P layer.state

/-- A source of the host's own leaves the storage alone. -/
theorem Chain.showsAside_supplied {source : Source η} {content : Bytes} {reach : Nat}
    {J E : η → Prop} (h : source.Shows content reach J E) :
    DiskCache.ShowsAside (Chain.supplied source).source content reach (fun r => True ∧ J r.2)
      (fun r => E r.2) := by
  intro kept
  have hwithin := h.within Chain.onHost (fun w : Unit × World η => w.2.storage = kept)
    fun _ _ hw => hw
  refine hwithin.congr (fun s => ?_) fun _ => Iff.rfl
  exact and_congr_left' (iff_of_eq (true_and _))

/-- A source of the host's own that shows a content may have a disk cache put around it. -/
theorem Layer.trusted_supplied {source : Source η} {content : Bytes} {reach : Nat} {J E : η → Prop}
    (h : source.Shows content reach J E) :
    (Layer.supplied source).Trusted source.locator.path content J :=
  ⟨fun _ => True, ⟨rfl, (Chain.showsAside_supplied h).faithful, fun _ hhost => ⟨hhost, rfl⟩⟩, trivial⟩

theorem Layer.faultless_supplied {source : Source η} {content : Bytes} {J : η → Prop}
    (h : source.Shows content content.length J fun _ => False) :
    (Layer.supplied source).Faultless source.locator.path content J :=
  ⟨fun _ => True, ⟨rfl, Chain.showsAside_supplied h, fun _ hhost => ⟨hhost, rfl⟩⟩, trivial⟩

namespace EntryUsers

variable {users : EntryUsers η} {size user : Nat} {layer : Layer η}

/-- What a step asks of the layer that it brings in. -/
def Allowed (path : String) (contents : Nat → Bytes) (J : η → Prop) : EntryStep η → Prop
  | .attach size inner => (contents size).length = size ∧ inner.Trusted path (contents size) J
  | _ => True

/-- A layer that is open, between the others. -/
theorem exists_split (h : users.layers[user]? = some (size, layer)) :
    ∃ front back, users.layers = front ++ (size, layer) :: back ∧
      (∀ other, users.layers.set user other = front ++ other :: back) ∧
      users.layers.eraseIdx user = front ++ back := by
  obtain ⟨hlt, heq⟩ := List.getElem?_eq_some_iff.mp h
  refine ⟨users.layers.take user, users.layers.drop (user + 1), ?_, ?_, ?_⟩
  · rw [← heq, ← List.drop_eq_getElem_cons hlt, List.take_append_drop]
  · intro other
    rw [List.set_eq_take_append_cons_drop, if_pos hlt]
  · apply List.eraseIdx_eq_take_drop_succ

/-- What holds of all layers still does when one is replaced by another of which it holds. -/
theorem forall_set {p : Nat × Layer η → Prop} (h : ∀ found ∈ users.layers, p found)
    {other : Nat × Layer η} (hother : p other) : ∀ found ∈ users.layers.set user other, p found := by
  intro found hfound
  rcases List.mem_or_eq_of_mem_set hfound with hold | rfl
  · exact h found hold
  · exact hother

end EntryUsers

end PspBoot
