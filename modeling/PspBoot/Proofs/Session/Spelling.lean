import PspBoot.Proofs.Image.InstalledGame
import PspBoot.Proofs.Image.Spelling
import PspBoot.Proofs.Locator.Ancestors
import PspBoot.Proofs.Session.Archive
import PspBoot.Proofs.Session.Boot
import PspBoot.Proofs.Session.GameDirectory

/-!
# Booting does not mind the spelling of separators

A layer that is named like the container of a game is never replaced, so what is decided on it rests
on what is found of it and, for the directory in which an installed game starts, on its parent.
Neither depends on the spelling of separators (`Session.spelling_law`).
-/

namespace PspBoot

open Identify (gameDirectoryMark headOf reachesHead)
open Locator (ebootName)

/-! ### First occurrences -/

namespace Text

variable {needle text rest : List Char}

/-- The text from the first occurrence of the needle on: no longer end of the text begins with
it. -/
structure FromFirst (needle text rest : List Char) : Prop where
  isPrefix : needle <+: rest
  isSuffix : rest <:+ text
  first : ∀ later, later <:+ text → needle <+: later → later.length ≤ rest.length

theorem fromFirst_of_eq_some (h : fromFirst? needle text = some rest) :
    FromFirst needle text rest := by
  obtain ⟨hbegins, hends⟩ := of_fromFirst?_eq_some h
  refine ⟨hbegins, hends, ?_⟩
  induction text with
  | nil =>
    intro later hlater _
    rw [List.suffix_nil.mp hlater]
    exact Nat.zero_le _
  | cons c cs ih =>
    intro later hlater hneedle
    rw [fromFirst?] at h
    split at h
    · obtain rfl := Option.some.inj h
      exact hlater.length_le
    · next hhere =>
      rcases List.suffix_cons_iff.mp hlater with rfl | hlater
      · exact absurd (List.isPrefixOf_iff_prefix.mpr hneedle) hhere
      · exact ih h (of_fromFirst?_eq_some h).2 later hlater hneedle

end Text

/-! ### Containers on a memory stick -/

namespace Identify

variable {σ : Type} {source : Source σ}

/-- On a path through the game directory a container is no loose one. -/
theorem container_notMem (h : source.locator.contains gameDirectoryMark = true) (s : σ) :
    (container source s).1 ∉ [.executable, .container] := by
  unfold container
  simp only [run_bind, run_ite, h, if_true]
  split
  · simp
  · split
    · simp
    · split
      · simp
      · simp

end Identify

namespace Session

variable {η θ : Type}

/-- The loader and the directory of a decision to load. -/
def planOf : Except BootError (Launch η) → Option (LaunchTarget × Option String)
  | .error _ => none
  | .ok decision => some (decision.target, decision.startDirectory)

/-- What is decided on the container of a game directory, by what is found of it. -/
def planInside (directory? : Option String) : Identified → Option (LaunchTarget × Option String)
  | .error _ | .ok .ps1Game => none
  | .ok (.disc .storeImage) => some (.disc, startDirectory? .disc)
  | .ok _ => some (.executable, directory?)

theorem planInside_ok {kind : ImageKind} (hstore : kind ≠ .disc .storeImage)
    (hps1 : kind ≠ .ps1Game) (directory? : Option String) :
    planInside directory? (.ok kind) = some (.executable, directory?) := by
  unfold planInside
  split
  · next h => cases h
  · next h => exact absurd (Except.ok.inj h) hps1
  · next h => exact absurd (Except.ok.inj h) hstore
  · rfl

/-- What is decided on a layer, by what is found of it, with `inside` for a game directory. -/
def planOutside (locator : Locator) (inside : Option (LaunchTarget × Option String)) :
    Identified → Option (LaunchTarget × Option String)
  | .error _ => none
  | .ok kind =>
      match verdict locator kind with
      | .refuse _ => none
      | .enter => inside
      | .launch target => some (target, startDirectory? target)

/-- A layer that is named like a container is taken for the container that is looked for. -/
theorem planOf_prepareGameDirectory (opener : Opener η) {layer : Layer η}
    (hname : layer.locator.filename = ebootName) (world : World η) :
    planOf (prepareGameDirectory opener layer world).1 =
      let found := (layer.examined world).1.isPresent (layer.examined world).2
      if found.1.1 then
        planInside (memoryStickDirectory? layer.locator) (found.1.2.identify found.2).1.1
      else
        none := by
  have hentered : opener.enterGameDirectory layer world = layer.examined world := by
    rw [Opener.run_enterGameDirectory, if_neg fun h => h.2 hname]
  have hlocator : ((layer.examined world).1.isPresent (layer.examined world).2).1.2.locator =
      layer.locator := rfl
  rw [prepareGameDirectory, run_bind, hentered, run_bind]
  generalize (layer.examined world).1.isPresent (layer.examined world).2 = found at hlocator ⊢
  obtain ⟨⟨present, opened⟩, w⟩ := found
  cases present with
  | false => rfl
  | true =>
    have hsame : (opened.identify w).1.2.locator = layer.locator := hlocator
    dsimp only
    rw [if_neg (by decide), if_pos rfl, run_bind]
    generalize opened.identify w = examined at hsame ⊢
    obtain ⟨⟨result, opened⟩, w⟩ := examined
    dsimp only at hsame ⊢
    rw [← hsame]
    generalize memoryStickDirectory? opened.locator = directory?
    split
    · rfl
    · rfl
    · rfl
    · next kind hstore hps1 =>
      rw [planInside_ok hstore hps1]
      rfl

/-- **What is decided on a layer that is named like a container rests on what is found of it.**  The
layer of a container on a memory stick is examined three times. -/
theorem planOf_prepare (opener : Opener η) {layer : Layer η}
    (hname : layer.locator.filename = ebootName) (world : World η) :
    planOf (prepare opener layer world).1 =
      let source := layer.chain.source
      let first := identify source (layer.state, world)
      let second := identify source first.2
      let found := source.isPresent second.2
      planOutside layer.locator
        (if found.1 then
          planInside (memoryStickDirectory? layer.locator) (identify source found.2).1
        else
          none)
        first.1 := by
  have hnamed : (layer.examined world).1.locator.filename = ebootName := hname
  refine Eq.trans ?_ (congrArg (planOutside layer.locator · (layer.identify world).1.1)
    (planOf_prepareGameDirectory opener hnamed (layer.examined world).2))
  rw [prepare, run_bind, Layer.examined]
  generalize layer.identify world = examined
  obtain ⟨⟨result, layer⟩, w⟩ := examined
  cases result with
  | error cause => rfl
  | ok kind =>
    cases kind with
    | disc | rawDisc | executable | otherExecutable | container | installedGame | ps1Game
    | saveState | saveData | directory | trace | archive | binary | unknown => rfl

/-- The directory is that of the locator's own parent. -/
theorem memoryStickDirectory?_respelled {locator other : Locator} (h : locator.Respelled other) :
    memoryStickDirectory? locator = memoryStickDirectory? other := by
  rw [memoryStickDirectory?, memoryStickDirectory?, h.parent.normalized_eq]

/-! ### Two runs -/

variable {layer : Layer η} {other : Layer θ} {world : World η} {world' : World θ}
  {R : layer.chain.State × World η → other.chain.State × World θ → Prop}

/-- What is found of the targets counts, and not what their paths are. -/
theorem planOutside_eq {locator twin : Locator} {path path' : String} {found found' : Identified}
    (h : SameFinding path path' found found') (inside : Option (LaunchTarget × Option String)) :
    planOutside locator inside found = planOutside twin inside found' := by
  cases h with
  | invalidPath | notFound | unreadable => rfl
  | kind kind =>
    cases kind with
    | disc | rawDisc | executable | otherExecutable | container | installedGame | ps1Game
    | saveState | saveData | directory | trace | archive | binary | unknown => rfl

theorem planInside_eq {path path' : String} {found found' : Identified}
    (h : SameFinding path path' found found') (directory? : Option String) :
    planInside directory? found = planInside directory? found' := by
  cases h with
  | kind | invalidPath | notFound | unreadable => rfl

/-- **On two layers that do the same the same is decided**, if they are named like a container, and
their locators differ in the spelling of separators alone. -/
theorem planOf_prepare_eq (opener : Opener η) (opener' : Opener θ)
    (hsame : layer.DoesAs world other world') (hlocator : layer.locator.Respelled other.locator)
    (hname : layer.locator.filename = ebootName) :
    planOf (prepare opener layer world).1 = planOf (prepare opener' other world').1 := by
  obtain ⟨R, htwins, hstart⟩ := hsame
  have hidentify : Corresponds R (SameFinding layer.locator.path other.locator.path)
      (identify layer.chain.source) (identify other.chain.source) := by
    rw [Layer.locator, Layer.locator, ← Chain.locator_source, ← Chain.locator_source]
      at hlocator ⊢
    exact (htwins.resembles hlocator.looksLike).identify
  obtain ⟨hfirst, hexamined⟩ := hidentify _ _ hstart
  obtain ⟨-, hentered⟩ := hidentify _ _ hexamined
  obtain ⟨hpresent, hfound⟩ := htwins.isPresent _ _ hentered
  obtain ⟨hinside, -⟩ := hidentify _ _ hfound
  have hname' : other.locator.filename = ebootName := hlocator.filename_eq ▸ hname
  rw [planOf_prepare opener hname, planOf_prepare opener' hname']
  dsimp only
  rw [hpresent, planInside_eq hinside, memoryStickDirectory?_respelled hlocator]
  exact planOutside_eq hfirst _

/-! ### The directory of a container -/

/-- Only an installed game may be loaded with a directory of its own. -/
theorem of_planOutside {locator : Locator} {inside : Option (LaunchTarget × Option String)}
    {found : Identified} {directory? : Option String}
    (h : planOutside locator inside found = some (.executable, directory?)) :
    found = .ok .installedGame ∧ inside = some (.executable, directory?) ∨
      (∃ kind ∈ [.executable, .container], found = .ok kind) ∧ directory? = none := by
  cases found with
  | error cause => cases h
  | ok kind =>
    cases kind with
    | installedGame => exact .inl ⟨rfl, h⟩
    | container | executable =>
      cases h
      exact .inr ⟨⟨_, by simp, rfl⟩, rfl⟩
    | disc | rawDisc | otherExecutable | ps1Game | saveState | saveData | directory | trace
    | archive | binary | unknown => cases h

theorem of_planInside {found : Identified} {inside? directory? : Option String}
    (h : planInside inside? found = some (.executable, directory?)) : directory? = inside? := by
  unfold planInside at h
  split at h
  · cases h
  · cases h
  · cases h
  · cases h
    rfl

/-- An executable that is named like a container starts in the directory of its parent if it is a
container on a memory stick, and in none otherwise. -/
theorem startDirectory_of_planOf (opener : Opener η) {directory? : Option String}
    {t : layer.chain.State × World η} (hname : layer.locator.filename = ebootName)
    (hmark : layer.locator.contains gameDirectoryMark = true)
    (hreaches : reachesHead layer.chain.source (layer.state, world) = (true, t))
    (hplan : planOf (prepare opener layer world).1 = some (.executable, directory?)) :
    directory? =
      if Signature.ofHead? (headOf layer.chain.source t) = some .container then
        memoryStickDirectory? layer.locator
      else
        none := by
  have hfound := Identify.identify_of_reachesHead hreaches
  rw [planOf_prepare opener hname] at hplan
  rcases of_planOutside hplan with ⟨hgame, hinside⟩ | ⟨⟨kind, hkind, hloose⟩, rfl⟩
  · -- What is identified as an installed game begins like a container.
    rw [hgame] at hfound
    split at hfound
    · cases hfound
    · rw [if_pos (Identify.ofHead?_of_byHead (Except.ok.inj hfound).symm)]
      split at hinside
      · exact of_planInside hinside
      · cases hinside
  · rw [if_neg]
    intro hhead
    rw [hloose] at hfound
    split at hfound
    · cases hfound
    · rw [Identify.byHead, hhead] at hfound
      rw [Except.ok.inj hfound] at hkind
      rw [Layer.locator, ← Chain.locator_source] at hmark
      exact Identify.container_notMem hmark _ hkind

/-! ### The law -/

/-- A boot attempt calls a loader, and sets a directory, as it has been decided. -/
theorem calls_of_planOf (layer : Layer η) (session : Session η) (world : World η) :
    let calls := (observe (bootNoting layer) session world).calls
    let plan? := planOf (prepare session.opener layer world).1
    calls.filterMap HostCall.loader? = (plan?.map Prod.fst).toList ∧
      calls.filterMap HostCall.startDirectory? = (plan?.bind Prod.snd).toList := by
  dsimp only
  rcases hprepare : prepare session.opener layer world with ⟨error | decision, w⟩
  · rw [observe_of_error hprepare]
    exact ⟨rfl, rfl⟩
  · obtain ⟨answer, w', hobserve⟩ := observe_of_ok hprepare
    obtain ⟨target, layer, startDirectory⟩ := decision
    rw [hobserve]
    cases startDirectory with
    | none | some directory => exact ⟨rfl, rfl⟩

/-- The same loaders are called and the same directories are set. -/
structure SameCalls (calls : List (HostCall η)) (calls' : List (HostCall θ)) : Prop where
  loaders : calls.filterMap HostCall.loader? = calls'.filterMap HostCall.loader?
  directories :
    calls.filterMap HostCall.startDirectory? = calls'.filterMap HostCall.startDirectory?

/-- The machine starts in the parent of the locator, as it is seen from the root of the memory
stick. -/
def StartsInParent (locator : Locator) (calls : List (HostCall η)) : Prop :=
  ∃ rest, Text.FromFirst gameDirectoryMark.toList locator.parent.normalized.toList rest ∧
    calls.filterMap HostCall.startDirectory? = [memoryStickRoot ++ String.ofList rest]

/-- Below the game directory a container has a directory to start in. -/
theorem memoryStickDirectory?_of_contains {locator : Locator}
    (h : locator.parent.contains gameDirectoryMark = true) :
    ∃ rest, Text.FromFirst gameDirectoryMark.toList locator.parent.normalized.toList rest ∧
      memoryStickDirectory? locator = some (memoryStickRoot ++ String.ofList rest) := by
  rw [Locator.contains, Text.occursIn] at h
  obtain ⟨rest, hrest⟩ := Option.isSome_iff_exists.mp h
  rw [← String.toList_ofList (l := Path.normalized _)] at hrest
  refine ⟨rest, Text.fromFirst_of_eq_some hrest, ?_⟩
  exact congrArg (Option.map fun rest => memoryStickRoot ++ String.ofList rest) hrest

/-- **An executable that is named like a container starts in its parent**, if that is on a memory
stick and the file begins like a container, and otherwise nowhere in particular. -/
theorem startsInParent_of_reachesHead {t : layer.chain.State × World η} (session : Session η)
    (hname : layer.locator.filename = ebootName)
    (hmark : layer.locator.parent.contains gameDirectoryMark = true)
    (hreaches : reachesHead layer.chain.source (layer.state, world) = (true, t))
    (hexecutable : .executable ∈
      (observe (bootNoting layer) session world).calls.filterMap HostCall.loader?) :
    if Signature.ofHead? (headOf layer.chain.source t) = some .container then
      StartsInParent layer.locator (observe (bootNoting layer) session world).calls
    else
      (observe (bootNoting layer) session world).calls.filterMap HostCall.startDirectory? = [] := by
  obtain ⟨hloaders, hdirectories⟩ := calls_of_planOf layer session world
  rw [hloaders, Option.mem_toList, Option.map_eq_some_iff] at hexecutable
  obtain ⟨⟨target, directory?⟩, hplan, rfl : target = _⟩ := hexecutable
  have hdirectory := startDirectory_of_planOf session.opener hname
    (Locator.contains_of_parent hmark) hreaches hplan
  rw [hplan, Option.bind_some] at hdirectories
  split at hdirectory
  · next hhead =>
    rw [if_pos hhead]
    obtain ⟨rest, hrest, hparent⟩ := memoryStickDirectory?_of_contains hmark
    refine ⟨rest, hrest, ?_⟩
    rw [hdirectories, hdirectory, hparent]
    rfl
  · next hhead =>
    rw [if_neg hhead, hdirectories, hdirectory]
    rfl

/-- **How separators are spelled does not matter.**  The same is read off two spellings of a path.
Two layers on them that do the same are asked the same questions, and the same is found of them; and
if they are named like a container, booting them calls the same loader, if any, after setting the
same directory, if any.  Where the parent is on a memory stick a container that is started as an
executable starts there, and any other file starts nowhere in particular. -/
theorem spelling_law {locator other : Locator} (h : locator.Respelled other) :
    locator.ReadsAs other ∧
    ∀ {η θ : Type} (layer : Layer η) (twin : Layer θ) (world : World η) (world' : World θ),
      layer.locator = locator → twin.locator = other → layer.DoesAs world twin world' →
      SameFinding locator.path other.path (layer.identify world).1.1 (twin.identify world').1.1 ∧
      layer.questions world = twin.questions world' ∧
      (locator.filename = ebootName → ∀ (session : Session η) (session' : Session θ),
        let calls := (observe (bootNoting layer) session world).calls
        SameCalls calls (observe (bootNoting twin) session' world').calls ∧
        ∀ t, reachesHead layer.chain.source (layer.state, world) = (true, t) →
          locator.parent.contains gameDirectoryMark = true →
          .executable ∈ calls.filterMap HostCall.loader? →
          if Signature.ofHead? (headOf layer.chain.source t) = some .container then
            StartsInParent locator calls
          else
            calls.filterMap HostCall.startDirectory? = []) := by
  refine ⟨h.readsAs, ?_⟩
  rintro η θ layer twin world world' rfl rfl hsame
  obtain ⟨hfound, hasked⟩ := Layer.identify_respelled hsame h
  refine ⟨hfound, hasked, fun hname session session' =>
    ⟨?_, fun t hreaches hmark hexecutable => ?_⟩⟩
  · obtain ⟨hloaders, hdirectories⟩ := calls_of_planOf layer session world
    obtain ⟨hloaders', hdirectories'⟩ := calls_of_planOf twin session' world'
    have hplan := planOf_prepare_eq session.opener session'.opener hsame h hname
    constructor
    · rw [hloaders, hloaders', hplan]
    · rw [hdirectories, hdirectories', hplan]
  · exact startsInParent_of_reachesHead session hname hmark hreaches hexecutable

/-- A container on a memory stick, with and without a mix of separators. -/
theorem spelling_law_memoryStick :
    let locator : Locator := { scheme := .localFile, path := "ms0:/PSP/GAME/DEMO/EBOOT.PBP" }
    let other : Locator := { scheme := .localFile, path := "ms0:\\PSP/GAME\\DEMO/EBOOT.PBP" }
    let layer := Layer.supplied (Source.ofContent locator Signature.containerHead)
    let twin := Layer.supplied (Source.ofContent other Signature.containerHead)
    let world : World Unit := { host := () }
    let calls (layer : Layer Unit) := (observe (bootNoting layer) (obliging Unit) world).calls
    locator.Respelled other ∧ layer.DoesAs world twin world ∧
      locator.parent.normalized = other.parent.normalized ∧
      (twin.identify world).1.1 = .ok .installedGame ∧ StartsInParent locator (calls layer) ∧
      (calls twin).filterMap HostCall.startDirectory? = ["ms0:/PSP/GAME/DEMO"] := by
  intro locator other layer twin world calls
  have hrespelled : locator.Respelled other := ⟨rfl, Path.respells_iff.mpr (by decide +kernel)⟩
  have hsame : layer.DoesAs world twin world := Layer.doesAs_ofContent locator other _ world
  obtain ⟨hreads, hlaw⟩ := spelling_law hrespelled
  obtain ⟨hfound, -, hboot⟩ := hlaw layer twin world world rfl rfl hsame
  obtain ⟨hcalls, hstart⟩ := hboot (by decide +kernel) (obliging Unit) (obliging Unit)
  have hgame : (layer.identify world).1.1 = .ok .installedGame := by decide +kernel
  have hparent := hstart (reachesHead layer.chain.source (layer.state, world)).2
    (Prod.ext (by decide +kernel) rfl) (by decide +kernel) (by decide +kernel)
  rw [if_pos (by decide +kernel)] at hparent
  have hdirectory : (calls layer).filterMap HostCall.startDirectory? = ["ms0:/PSP/GAME/DEMO"] := by
    decide +kernel
  refine ⟨hrespelled, hsame, hreads.parent, ?_, hparent, ?_⟩
  · rw [hgame] at hfound
    generalize (twin.identify world).1.1 = found at hfound ⊢
    cases hfound
    rfl
  · exact hcalls.directories.symm.trans hdirectory

end Session

end PspBoot
