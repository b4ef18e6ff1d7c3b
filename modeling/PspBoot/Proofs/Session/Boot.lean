import PspBoot.Proofs.Session.Exchange

/-!
# The boot law

A boot attempt either is refused before any collaborator is called, or hands its layer to exactly
one loader, after setting the directory in which the game starts where there is one.  The machine
runs if and only if that loader accepted the layer, and any failure leaves it in the state
`failed`.  So after any sequence of boots, exchanges and whatever else is done with a session, its
state is told by the boot attempt made last.
-/

namespace PspBoot

namespace Session

variable {η : Type}

/-! ### Decisions -/

/-- The beginning of the directories in which installed games start. -/
def installedGames : String := "ms0:/PSP/GAME/"

/-- The directory to start in fits the loader: a disc starts in the disc's directory, a trace in
none, and an executable in the directory of an installed game, if in any. -/
def Fits (target : LaunchTarget) (directory? : Option String) : Prop :=
  match target with
  | .disc => directory? = some discStartDirectory
  | .trace => directory? = none
  | .executable =>
      ∀ directory, directory? = some directory → installedGames.toList <+: directory.toList

/-- What `prepare` may end with.  Only a loader refuses with a reason of its own. -/
def Prepared : Except BootError (Launch η) → Prop
  | .error error => ∀ reason, error ≠ .refused reason
  | .ok decision => Fits decision.target decision.startDirectory

theorem prepared_ok {target : LaunchTarget} {layer : Layer η} {startDirectory : Option String}
    (h : Fits target startDirectory) :
    Prepared (.ok { target, layer, startDirectory }) := h

theorem fits_startDirectory? (target : LaunchTarget) : Fits target (startDirectory? target) := by
  cases target with
  | disc | trace => rfl
  | executable =>
    intro directory h
    cases h

/-- An installed game starts below the root of the memory stick. -/
theorem fits_memoryStickDirectory? (locator : Locator) :
    Fits .executable (memoryStickDirectory? locator) := by
  intro directory h
  obtain ⟨rest, hfound, rfl⟩ := Option.map_eq_some_iff.mp h
  obtain ⟨⟨title, rfl⟩, -⟩ := Text.of_fromFirst?_eq_some hfound
  rw [String.toList_append, String.toList_ofList]
  exact List.prefix_append _ _

theorem prepared_refuseUnexamined (cause : IdentifyError) (layer : Layer η) (world : World η) :
    Prepared (refuseUnexamined cause layer world).1 :=
  fun _ => nofun

theorem prepared_prepareGameDirectory (opener : Opener η) (layer : Layer η) (world : World η) :
    Prepared (prepareGameDirectory opener layer world).1 := by
  unfold prepareGameDirectory
  simp only [run_bind, run_ite]
  generalize opener.enterGameDirectory layer world = entered
  generalize entered.1.isPresent entered.2 = found
  generalize found.1.2.identify found.2 = examined
  obtain ⟨⟨result, layer⟩, world⟩ := examined
  split
  · exact fun _ => nofun
  dsimp only
  split
  · exact prepared_refuseUnexamined _ layer world
  · exact prepared_ok (fits_startDirectory? .disc)
  · exact fun _ => nofun
  · exact prepared_ok (fits_memoryStickDirectory? layer.locator)

/-- No kind is refused with a loader's reason. -/
theorem verdict_ne_refused {locator : Locator} {kind : ImageKind} {error : BootError}
    (h : verdict locator kind = .refuse error) (reason : String) : error ≠ .refused reason := by
  rintro rfl
  cases kind with
  | disc | rawDisc | executable | otherExecutable | container | installedGame | ps1Game
  | saveState | saveData | directory | trace | archive | binary | unknown => cases h

/-- **A decision fits its loader, and no loader is quoted before it was asked.** -/
theorem prepared_prepare (opener : Opener η) (layer : Layer η) (world : World η) :
    Prepared (prepare opener layer world).1 := by
  unfold prepare
  simp only [run_bind]
  generalize layer.identify world = examined
  obtain ⟨⟨result, layer⟩, world⟩ := examined
  cases result with
  | error cause => exact prepared_refuseUnexamined cause layer world
  | ok kind =>
    dsimp only
    cases hverdict : verdict layer.locator kind with
    | refuse error => exact verdict_ne_refused hverdict
    | enter => exact prepared_prepareGameDirectory opener layer world
    | launch target => exact prepared_ok (fits_startDirectory? target)

/-! ### Calls -/

/-- The calls that carry out a decision. -/
def launchCalls (decision : Launch η) (answer : Except String Unit) : List (HostCall η) :=
  decision.startDirectory.toList.map .setStartDirectory ++
    [.load decision.target decision.layer answer]

/-- The calls that a boot attempt may make. -/
inductive BootCalls : List (HostCall η) → Prop where
  | none : BootCalls []
  | disc (layer : Layer η) (answer : Except String Unit) :
      BootCalls [.setStartDirectory discStartDirectory, .load .disc layer answer]
  | trace (layer : Layer η) (answer : Except String Unit) : BootCalls [.load .trace layer answer]
  | executable (layer : Layer η) (answer : Except String Unit) :
      BootCalls [.load .executable layer answer]
  | installedGame (directory : String) (layer : Layer η) (answer : Except String Unit)
      (h : installedGames.toList <+: directory.toList) :
      BootCalls [.setStartDirectory directory, .load .executable layer answer]

theorem bootCalls_launchCalls {decision : Launch η}
    (h : Fits decision.target decision.startDirectory) (answer : Except String Unit) :
    BootCalls (launchCalls decision answer) := by
  obtain ⟨target, layer, startDirectory⟩ := decision
  cases target with
  | disc =>
    obtain rfl : startDirectory = some discStartDirectory := h
    exact .disc layer answer
  | trace =>
    obtain rfl : startDirectory = none := h
    exact .trace layer answer
  | executable =>
    cases startDirectory with
    | none => exact .executable layer answer
    | some directory => exact .installedGame directory layer answer (h directory rfl)

/-- The answers of the loaders among the calls for a decision. -/
theorem loaderAnswers_launchCalls (decision : Launch η) (answer : Except String Unit) :
    (launchCalls decision answer).filterMap HostCall.loaderAnswer? = [answer] := by
  obtain ⟨target, layer, startDirectory⟩ := decision
  cases startDirectory with
  | none => rfl
  | some directory => rfl

theorem run_loadNoting (host : Host η) (target : LaunchTarget) (layer : Layer η)
    (calls : List (HostCall η)) (session : Session η) (world : World η) :
    ∃ answer w, loadNoting host target layer calls session world =
      (((answer.mapError .refused, calls ++ [.load target layer answer]), session), w) := by
  rcases hload : host.loaders.forTarget target layer world with ⟨answer, w⟩
  refine ⟨answer, w, ?_⟩
  unfold loadNoting
  rw [run_bind_session, run_noting_session, run_lift_world, hload]
  cases answer with
  | ok => rfl
  | error reason => rfl

/-- A decision is carried out by its calls. -/
theorem run_launchNoting (host : Host η) (decision : Launch η) (session : Session η)
    (world : World η) :
    ∃ answer w, launchNoting host decision [] session world =
      (((answer.mapError .refused, launchCalls decision answer), session), w) := by
  obtain ⟨target, layer, startDirectory⟩ := decision
  cases startDirectory with
  | none => exact run_loadNoting host target layer [] session world
  | some directory =>
    unfold launchNoting
    dsimp only
    rw [run_bind_session, run_noting_session, run_lift_world]
    exact run_loadNoting host target layer [.setStartDirectory directory] session _

/-! ### Attempts -/

/-- How a boot attempt may end. -/
inductive Booted (before : Session η) (world : World η) :
    Ended η (Except BootError Unit) → Prop where
  | refused {error : BootError} {w : World η} (h : ∀ reason, error ≠ .refused reason) :
      Booted before world
        { result := .error error
          calls := []
          session := { before with state := .failed }
          world := w }
  | rejected {decision : Launch η} {reason : String} {w : World η}
      (hfits : Fits decision.target decision.startDirectory) :
      Booted before world
        { result := .error (.refused reason)
          calls := launchCalls decision (.error reason)
          session := { before with state := .failed }
          world := w }
  | loaded {decision : Launch η} {w : World η}
      (hfits : Fits decision.target decision.startDirectory) :
      Booted before world
        { result := .ok ()
          calls := launchCalls decision (.ok ())
          session := { before with state := .running }
          world := w }

section Observed

variable {layer : Layer η} {session : Session η} {world w : World η}

/-- A refused layer is handed to nobody. -/
theorem observe_of_error {error : BootError}
    (h : prepare session.opener layer world = (.error error, w)) :
    observe (bootNoting layer) session world =
      { result := .error error
        calls := []
        session := { session with state := .failed }
        world := w } := by
  unfold observe bootNoting
  rw [run_bind_session, run_modifyThe_session]
  dsimp only
  rw [run_bind_session, run_getThe_session]
  dsimp only
  rw [run_bind_session, run_lift_world_session, h]
  rfl

/-- What was decided is carried out, and the machine runs if the loader agrees. -/
theorem observe_of_ok {decision : Launch η}
    (h : prepare session.opener layer world = (.ok decision, w)) :
    ∃ answer w', observe (bootNoting layer) session world =
      { result := answer.mapError .refused
        calls := launchCalls decision answer
        session :=
          { session with
            state :=
              match answer with
              | .ok () => .running
              | .error _ => .failed }
        world := w' } := by
  obtain ⟨answer, w', hrun⟩ :=
    run_launchNoting session.host decision { session with state := .booting } w
  refine ⟨answer, w', ?_⟩
  unfold observe bootNoting
  rw [run_bind_session, run_modifyThe_session]
  dsimp only
  rw [run_bind_session, run_getThe_session]
  dsimp only
  rw [run_bind_session, run_lift_world_session, h]
  dsimp only
  rw [run_bind_session, hrun]
  cases answer with
  | ok | error => rfl

end Observed

/-- **Every boot attempt ends in one of these ways.** -/
theorem booted (layer : Layer η) (session : Session η) (world : World η) :
    Booted session world (observe (bootNoting layer) session world) := by
  have hprepared := prepared_prepare session.opener layer world
  rcases hprepare : prepare session.opener layer world with ⟨error | decision, w⟩
  · rw [hprepare] at hprepared
    rw [observe_of_error hprepare]
    exact .refused hprepared
  · rw [hprepare] at hprepared
    obtain ⟨answer, w', hobserve⟩ := observe_of_ok hprepare
    rw [hobserve]
    cases answer with
    | ok => exact .loaded hprepared
    | error reason => exact .rejected hprepared

/-! ### The law -/

/-- What every boot attempt keeps to. -/
structure BootLaw (before : Session η) (after : Ended η (Except BootError Unit)) : Prop where
  /-- A boot succeeds exactly when one loader was asked and accepted the layer. -/
  ok_iff : after.result = .ok () ↔ after.calls.filterMap HostCall.loaderAnswer? = [.ok ()]
  /-- A loader's reason is quoted exactly when one loader was asked and gave it. -/
  refused_iff : ∀ reason, after.result = .error (.refused reason) ↔
    after.calls.filterMap HostCall.loaderAnswer? = [.error reason]
  /-- For any other failure no collaborator is called. -/
  uncalled : ∀ error, after.result = .error error → (∀ reason, error ≠ .refused reason) →
    after.calls = []
  calls : BootCalls after.calls
  /-- Nothing of the session changes but the state of the machine; the disc stays in the drive. -/
  session : after.session = { before with state := after.session.state }
  running : after.result = .ok () → after.session.state = .running
  failed : ∀ error, after.result = .error error → after.session.state = .failed

theorem Booted.law {before : Session η} {world : World η} {after : Ended η (Except BootError Unit)}
    (h : Booted before world after) : BootLaw before after := by
  cases h with
  | @refused error w h =>
    constructor
    · simp
    · intro reason
      simp [h reason]
    · exact fun _ _ _ => rfl
    · exact .none
    · rfl
    · nofun
    · exact fun _ _ => rfl
  | rejected hfits =>
    constructor
    · simp [loaderAnswers_launchCalls]
    · simp [loaderAnswers_launchCalls]
    · intro error herror hother
      cases herror
      exact absurd rfl (hother _)
    · exact bootCalls_launchCalls hfits _
    · rfl
    · nofun
    · exact fun _ _ => rfl
  | loaded hfits =>
    constructor
    · simp [loaderAnswers_launchCalls]
    · simp [loaderAnswers_launchCalls]
    · nofun
    · exact bootCalls_launchCalls hfits _
    · rfl
    · exact fun _ => rfl
    · nofun

/-! ### Runs -/

/-- The state of the machine after the last boot attempt, if there was any. -/
def stateAfter : Option (Except BootError Unit) → MachineState
  | none => .idle
  | some (.ok ()) => .running
  | some (.error _) => .failed

theorem state_boot (layer : Layer η) (session : Session η) (world : World η) :
    let run := boot layer session world
    run.1.2.state = stateAfter (some run.1.1) := by
  have hlaw := (booted layer session world).law
  rw [run_eq_observe (erases_bootNoting layer) session world]
  dsimp only
  cases hresult : (observe (bootNoting layer) session world).result with
  | ok => exact hlaw.running hresult
  | error error => exact hlaw.failed error hresult

theorem state_exchangeDisc (locator : Locator) (session : Session η) (world : World η) :
    (exchangeDisc locator session world).1.2.state = session.state := by
  rw [run_eq_observe (erases_exchangeDiscNoting locator) session world]
  exact (exchanged locator session world).law.state

end Session

/-- A step in the life of a session. -/
inductive SessionStep (η : Type) where
  | boot (layer : Layer η)
  | exchange (locator : Locator)
  | openLocator (locator : Locator)
  | addFactory (beginning : String) (factory : Factory η)
  /-- Something else happens to the host, the files or an opened layer. -/
  | elsewhere (change : World η → World η)

namespace SessionStep

open Session (stateAfter)

variable {η : Type}

/-- Makes a step, and gives the result if it is a boot attempt. -/
def perform : SessionStep η → SessionM η (Option (Except BootError Unit))
  | .boot layer => do
      let result ← Session.boot layer
      pure (some result)
  | .exchange locator => do
      let _ ← Session.exchangeDisc locator
      pure none
  | .openLocator locator => do
      let _ ← Session.openLocator locator
      pure none
  | .addFactory beginning factory => do
      Session.addFactory beginning factory
      pure none
  | .elsewhere change => do
      modifyThe (World η) change
      pure none

/-- Makes steps one after the other, and gives the result of the last boot attempt, or `latest` if
there is none among them. -/
def performAll (latest : Option (Except BootError Unit)) :
    List (SessionStep η) → SessionM η (Option (Except BootError Unit))
  | [] => pure latest
  | step :: steps => do
      let result ← step.perform
      performAll (result.or latest) steps

/-- **A step leaves the machine in the state that the last boot attempt led to.** -/
theorem state_perform (step : SessionStep η) (latest : Option (Except BootError Unit))
    (session : Session η) (world : World η) (h : session.state = stateAfter latest) :
    let run := step.perform session world
    run.1.2.state = stateAfter (run.1.1.or latest) := by
  cases step with
  | boot layer => exact Session.state_boot layer session world
  | exchange locator => exact (Session.state_exchangeDisc locator session world).trans h
  | openLocator | addFactory | elsewhere => exact h

theorem state_performAll (steps : List (SessionStep η)) (latest : Option (Except BootError Unit))
    (session : Session η) (world : World η) (h : session.state = stateAfter latest) :
    let run := performAll latest steps session world
    run.1.2.state = stateAfter run.1.1 := by
  induction steps generalizing latest session world with
  | nil => exact h
  | cons step steps ih => exact ih _ _ _ (state_perform step latest session world h)

/-- Only boot attempts have a result. -/
theorem result_perform (step : SessionStep η) (session : Session η) (world : World η) :
    (step.perform session world).1.1 = none ↔ ∀ layer, .boot layer ≠ step := by
  cases step with
  | boot layer => exact ⟨nofun, fun h => absurd rfl (h layer)⟩
  | exchange | openLocator | addFactory | elsewhere => exact ⟨fun _ _ => nofun, fun _ => rfl⟩

theorem result_performAll (steps : List (SessionStep η)) (latest : Option (Except BootError Unit))
    (session : Session η) (world : World η) :
    (performAll latest steps session world).1.1 = none ↔
      latest = none ∧ ∀ layer, .boot layer ∉ steps := by
  induction steps generalizing latest session world with
  | nil =>
    change latest = none ↔ _
    simp
  | cons step steps ih =>
    have hstep := result_perform step session world
    refine (ih _ _ _).trans ?_
    simp only [Option.or_eq_none_iff, List.mem_cons, not_or]
    constructor
    · rintro ⟨⟨hresult, hlatest⟩, hsteps⟩
      exact ⟨hlatest, fun layer => ⟨hstep.mp hresult layer, hsteps layer⟩⟩
    · rintro ⟨hlatest, hsteps⟩
      exact ⟨⟨hstep.mpr fun layer => (hsteps layer).1, hlatest⟩, fun layer => (hsteps layer).2⟩

end SessionStep

namespace Session

variable {η : Type}

/-- **The boot law.**  Whatever the layer, its sources and the collaborators of the host do, a boot
attempt keeps to `BootLaw`, with the calls that it makes.  A session that has just been made is
idle until the first attempt; from then on, the machine runs or has failed as the last attempt
says, whatever other steps lie between. -/
theorem boot_lawful :
    (∀ (layer : Layer η) (session : Session η) (world : World η),
      let after := observe (bootNoting layer) session world
      boot layer session world = ((after.result, after.session), after.world) ∧
        BootLaw session after) ∧
    ∀ (opener : Opener η) (host : Host η) (world : World η) (steps : List (SessionStep η)),
      let run := SessionStep.performAll none steps { opener, host } world
      run.1.2.state = stateAfter run.1.1 ∧ (run.1.1 = none ↔ ∀ layer, .boot layer ∉ steps) := by
  constructor
  · intro layer session world
    constructor
    · exact run_eq_observe (erases_bootNoting layer) session world
    · exact (booted layer session world).law
  · intro opener host world steps
    constructor
    · exact SessionStep.state_performAll steps none { opener, host } world rfl
    · exact (SessionStep.result_performAll steps none { opener, host } world).trans
        (and_iff_right rfl)

end Session

end PspBoot
