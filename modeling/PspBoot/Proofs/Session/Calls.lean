import PspBoot.Proofs.Outcome
import PspBoot.Session.Boot
import PspBoot.Session.Exchange

/-!
# Calls of the host's collaborators

Booting a layer and exchanging the disc call the collaborators of the host.  `Noting` adds a list
of calls to a monad, and `noting` writes a call down as it is made.  `bootNoting` and
`exchangeDiscNoting` are `boot` and `exchangeDisc` with every call of a collaborator written down;
without the list they are the same actions (`erases_bootNoting`, `erases_exchangeDiscNoting`).

Whatever is not given the host cannot call its collaborators: opening, examining and closing
layers, and the decision on a layer.
-/

namespace PspBoot

/-- A call of one of the host's collaborators, with its answer. -/
inductive HostCall (η : Type) where
  | setStartDirectory (directory : String)
  | hasMount (mount : String) (answer : Bool)
  | load (target : LaunchTarget) (layer : Layer η) (answer : Except String Unit)
  | remap (disc : Layer η) (answer : Bool)

namespace HostCall

variable {η : Type}

/-- The loader that was asked. -/
@[simp] def loader? : HostCall η → Option LaunchTarget
  | .load target _ _ => some target
  | _ => none

/-- The answer of a loader. -/
@[simp] def loaderAnswer? : HostCall η → Option (Except String Unit)
  | .load _ _ answer => some answer
  | _ => none

/-- The disc that memory was mapped for, and the answer of the mapper. -/
@[simp] def remapped? : HostCall η → Option (Layer η × Bool)
  | .remap disc answer => some (disc, answer)
  | _ => none

/-- The directory that a game was to start in. -/
@[simp] def startDirectory? : HostCall η → Option String
  | .setStartDirectory directory => some directory
  | _ => none

end HostCall

/-- Actions with a list of the calls that were made. -/
abbrev Noting (η : Type) (m : Type → Type) := StateT (List (HostCall η)) m

section Noting

variable {η α β : Type} {m : Type → Type} [Monad m]

/-- Makes a call and writes it down with its answer. -/
def noting (call : α → HostCall η) (action : m α) : Noting η m α := fun calls => do
  let answer ← action
  pure (answer, calls ++ [call answer])

/-- Without its calls, the action is another one. -/
def Erases (noted : Noting η m α) (action : m α) : Prop :=
  ∀ calls, Prod.fst <$> noted calls = action

namespace Erases

theorem pure [LawfulMonad m] (a : α) : Erases (pure a : Noting η m α) (pure a) :=
  fun calls => map_pure Prod.fst (a, calls)

theorem bind [LawfulMonad m] {noted : Noting η m α} {action : m α} {next : α → Noting η m β}
    {next' : α → m β}
    (first : Erases noted action) (second : ∀ a, Erases (next a) (next' a)) :
    Erases (noted >>= next) (action >>= next') := by
  intro calls
  change Prod.fst <$> (noted calls >>= fun r => next r.1 r.2) = action >>= next'
  rw [map_bind, ← first calls, bind_map_left]
  congr 1
  funext r
  exact second r.1 r.2

theorem ite {p : Prop} [Decidable p] {yes no : Noting η m α} {yes' no' : m α}
    (hyes : Erases yes yes') (hno : Erases no no') :
    Erases (if p then yes else no) (if p then yes' else no') := by
  by_cases hp : p
  · rw [if_pos hp, if_pos hp]
    exact hyes
  · rw [if_neg hp, if_neg hp]
    exact hno

/-- An action that calls no collaborator. -/
theorem lift [LawfulMonad m] (action : m α) : Erases (liftM action : Noting η m α) action := by
  intro calls
  change Prod.fst <$> (action >>= fun a => Pure.pure (a, calls)) = action
  rw [map_bind]
  simp

theorem noting [LawfulMonad m] (call : α → HostCall η) (action : m α) :
    Erases (PspBoot.noting call action) action := by
  intro calls
  change Prod.fst <$> (action >>= fun a => Pure.pure (a, calls ++ [call a])) = action
  rw [map_bind]
  simp

/-- To look at the state is no action of its own. -/
theorem look {σ : Type} {next : σ → Noting η (StateM σ) α} {action : StateM σ α}
    (h : ∀ s, Erases (next s) action) : Erases (getThe σ >>= next) action := by
  intro calls
  funext s
  exact congrFun (h s calls) s

end Erases

/-! ### Running an action with calls

These equations run an action on a state, and an action of a session, together with its list of
calls. -/

section StateM

variable {σ : Type} (calls : List (HostCall η)) (s : σ)

@[simp] theorem run_bind_state (noted : Noting η (StateM σ) α) (next : α → Noting η (StateM σ) β) :
    (noted >>= next) calls s =
      next (noted calls s).1.1 (noted calls s).1.2 (noted calls s).2 := rfl

@[simp] theorem run_pure_state (a : α) :
    (pure a : Noting η (StateM σ) α) calls s = ((a, calls), s) := rfl

@[simp] theorem run_lift_state (action : StateM σ α) :
    (liftM action : Noting η (StateM σ) α) calls s = (((action s).1, calls), (action s).2) := rfl

@[simp] theorem run_getThe_state :
    (getThe σ : Noting η (StateM σ) σ) calls s = ((s, calls), s) := rfl

@[simp] theorem run_noting_state (call : α → HostCall η) (action : StateM σ α) :
    noting call action calls s =
      (((action s).1, calls ++ [call (action s).1]), (action s).2) := rfl

end StateM

section SessionM

variable (calls : List (HostCall η)) (session : Session η) (world : World η)

@[simp] theorem run_bind_session (noted : Noting η (SessionM η) α)
    (next : α → Noting η (SessionM η) β) :
    (noted >>= next) calls session world =
      let run := noted calls session world
      next run.1.1.1 run.1.1.2 run.1.2 run.2 := rfl

@[simp] theorem run_lift_session (action : SessionM η α) :
    (liftM action : Noting η (SessionM η) α) calls session world =
      let run := action session world
      (((run.1.1, calls), run.1.2), run.2) := rfl

@[simp] theorem run_noting_session (call : α → HostCall η) (action : SessionM η α) :
    noting call action calls session world =
      let run := action session world
      (((run.1.1, calls ++ [call run.1.1]), run.1.2), run.2) := rfl

/-- An action in the world leaves the session as it is. -/
@[simp] theorem run_lift_world (action : StateM (World η) α) :
    (liftM action : SessionM η α) session world =
      (((action world).1, session), (action world).2) := rfl

@[simp] theorem run_lift_world_session (action : StateM (World η) α) :
    (liftM action : Noting η (SessionM η) α) calls session world =
      ((((action world).1, calls), session), (action world).2) := rfl

@[simp] theorem run_getThe_session :
    (getThe (Session η) : Noting η (SessionM η) (Session η)) calls session world =
      (((session, calls), session), world) := rfl

@[simp] theorem run_modifyThe_session (f : Session η → Session η) :
    (modifyThe (Session η) f : Noting η (SessionM η) PUnit) calls session world =
      (((⟨⟩, calls), f session), world) := rfl

end SessionM

end Noting

namespace Session

variable {η : Type}

/-! ### Booting -/

/-- Hands a layer to a loader and writes the call down. -/
def loadNoting (host : Host η) (target : LaunchTarget) (layer : Layer η) :
    Noting η (SessionM η) (Except BootError Unit) := do
  match ← noting (.load target layer) (liftM (host.loaders.forTarget target layer)) with
  | .ok () => pure (.ok ())
  | .error message => pure (.error (.refused message))

/-- `launch` with its calls. -/
def launchNoting (host : Host η) (decision : Launch η) :
    Noting η (SessionM η) (Except BootError Unit) := do
  match decision.startDirectory with
  | some directory =>
      noting (fun _ => .setStartDirectory directory)
        (liftM (World.hostFocus.lift (host.files.setStartDirectory directory)))
  | none => pure ()
  loadNoting host decision.target decision.layer

/-- `boot` with its calls. -/
def bootNoting (layer : Layer η) : Noting η (SessionM η) (Except BootError Unit) := do
  modifyThe (Session η) fun session => { session with state := .booting }
  let session ← getThe (Session η)
  let result ←
    match ← prepare session.opener layer with
    | .error error => pure (.error error)
    | .ok decision => launchNoting session.host decision
  modifyThe (Session η) fun session =>
    { session with
      state :=
        match result with
        | .ok () => .running
        | .error _ => .failed }
  pure result

theorem erases_launchNoting (host : Host η) (decision : Launch η) :
    Erases (launchNoting host decision) (liftM (launch host decision) : SessionM η _) := by
  have hload : Erases (loadNoting host decision.target decision.layer)
      (liftM (launch host { decision with startDirectory := none })) := by
    unfold launch
    rw [liftM_bind]
    refine Erases.bind (.noting _ _) fun answer => ?_
    cases answer with
    | ok => exact Erases.pure (m := SessionM η) _
    | error message => exact Erases.pure (m := SessionM η) _
  obtain ⟨target, layer, startDirectory⟩ := decision
  cases startDirectory with
  | none => exact hload
  | some directory =>
    unfold launch
    rw [liftM_bind]
    exact Erases.bind (.noting _ _) fun _ => hload

/-- **A boot attempt is the same with and without its calls.** -/
theorem erases_bootNoting (layer : Layer η) : Erases (bootNoting layer) (boot layer) := by
  refine Erases.bind (.lift _) fun _ => Erases.bind (.lift _) fun session => ?_
  refine Erases.bind (.lift _) fun prepared => ?_
  cases prepared with
  | error error => exact Erases.bind (.pure _) fun _ => Erases.bind (.lift _) fun _ => .pure _
  | ok decision =>
    refine Erases.bind (erases_launchNoting session.host decision) fun result => ?_
    exact Erases.bind (.lift _) fun _ => .pure _

/-! ### Exchanging the disc -/

/-- `mapDisc` with its calls. -/
def mapDiscNoting (mapper : MemoryMapper η) (disc : Chain η) :
    Noting η (StateM (disc.State × World η)) (Except ExchangeError Unit) := do
  match ← identify disc.source with
  | .error error => pure (.error (.notADisc "identification error" error.message))
  | .ok kind =>
      if kind.isDisc then
        let (state, _) ← getThe (disc.State × World η)
        if ← noting (.remap { chain := disc, state }) (mapper.remap disc) then
          pure (.ok ())
        else
          pure (.error .notMapped)
      else
        pure (.error (.notADisc kind.name (remark kind)))

/-- `useDisc` for an action that takes note of its calls. -/
def useDiscNoting {α : Type}
    (action : (disc : Chain η) → Noting η (StateM (disc.State × World η)) α) :
    Noting η (SessionM η) (Option α) := fun calls => do
  match ← useDisc fun disc => action disc calls with
  | some (a, calls) => pure (some a, calls)
  | none => pure (none, calls)

/-- `exchangeDisc` with its calls. -/
def exchangeDiscNoting (locator : Locator) :
    Noting η (SessionM η) (Except ExchangeError Unit) := do
  let session ← getThe (Session η)
  if !(← noting (.hasMount discDrive)
      (liftM (World.hostFocus.lift (session.host.files.hasMount discDrive)))) then
    pure (.error .noDrive)
  else
    let layer ← session.opener.openLayer locator
    let (present, layer) ← layer.isPresent
    if !present then
      layer.close
      pure (.error (.notFound locator.path))
    else
      let disc ← session.opener.enterGameDirectory layer
      insertDisc disc
      pure ((← useDiscNoting (mapDiscNoting session.host.mapper)).getD (.error .noDrive))

theorem erases_mapDiscNoting (mapper : MemoryMapper η) (disc : Chain η) :
    Erases (mapDiscNoting mapper disc) (mapDisc mapper disc) := by
  refine Erases.bind (.lift _) fun result => ?_
  cases result with
  | error error => exact .pure _
  | ok kind =>
    refine .ite ?_ (.pure _)
    refine Erases.look fun s => Erases.bind (.noting _ _) fun answer => ?_
    exact .ite (.pure _) (.pure _)

theorem erases_useDiscNoting {α : Type}
    {noted : (disc : Chain η) → Noting η (StateM (disc.State × World η)) α}
    {action : (disc : Chain η) → StateM (disc.State × World η) α}
    (h : ∀ disc, Erases (noted disc) (action disc)) :
    Erases (useDiscNoting noted) (useDisc action) := by
  intro calls
  funext session world
  obtain ⟨opener, host, state, disc?⟩ := session
  cases disc? with
  | none => rfl
  | some disc =>
    rw [← funext fun disc => h disc calls]
    rfl

/-- **An exchange is the same with and without its calls.** -/
theorem erases_exchangeDiscNoting (locator : Locator) :
    Erases (exchangeDiscNoting locator) (exchangeDisc locator : SessionM η _) := by
  refine Erases.bind (.lift _) fun session => Erases.bind (.noting _ _) fun mounted => ?_
  refine .ite (.pure _) ?_
  refine Erases.bind (.lift _) fun layer => Erases.bind (.lift _) fun found => ?_
  refine .ite (Erases.bind (.lift _) fun _ => .pure _) ?_
  refine Erases.bind (.lift _) fun disc => Erases.bind (.lift _) fun _ => ?_
  refine Erases.bind (erases_useDiscNoting fun disc => ?_) fun _ => .pure _
  exact erases_mapDiscNoting session.host.mapper disc

/-! ### Running with calls -/

/-- The end of an action of a session: its result, the calls it made, and what it left behind. -/
structure Ended (η α : Type) where
  result : α
  calls : List (HostCall η)
  session : Session η
  world : World η

/-- The end of an action that was run with its calls. -/
def Ended.of {α : Type} (run : ((α × List (HostCall η)) × Session η) × World η) : Ended η α where
  result := run.1.1.1
  calls := run.1.1.2
  session := run.1.2
  world := run.2

/-- Runs an action and takes note of its calls. -/
def observe {α : Type} (noted : Noting η (SessionM η) α) (session : Session η)
    (world : World η) : Ended η α :=
  .of (noted [] session world)

/-- What is observed is what happens without an observer. -/
theorem run_eq_observe {α : Type} {noted : Noting η (SessionM η) α} {action : SessionM η α}
    (h : Erases noted action) (session : Session η) (world : World η) :
    action session world =
      (((observe noted session world).result, (observe noted session world).session),
        (observe noted session world).world) := by
  rw [← h []]
  rfl

end Session

end PspBoot
