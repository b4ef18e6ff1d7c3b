import PspBoot.Session.Basic

/-!
# Booting

A boot attempt identifies its layer and either refuses it or hands it to a loader:

* a game directory is replaced by its container, which is identified in turn; a packed disc image
  is loaded as a disc and anything else as an executable that starts in its directory;
* containers and executables go to the loader for executables;
* disc images start in the disc's program directory and go to the loader for discs;
* traces go to the loader for traces;
* all other kinds are refused.

`prepare` makes that decision and `boot` carries it out.  A refused layer is closed.
-/

namespace PspBoot

/-- The loader that a layer is handed to. -/
inductive LaunchTarget where
  | disc
  | executable
  | trace
deriving Repr, Inhabited, DecidableEq

/-- The loader for a target. -/
def Loaders.forTarget {η : Type} (loaders : Loaders η) : LaunchTarget → Loader η
  | .disc => loaders.disc
  | .executable => loaders.executable
  | .trace => loaders.trace

/-- A decision to load: the layer, the loader for it, and the directory to start in if one is to
be set. -/
structure Launch (η : Type) where
  target : LaunchTarget
  layer : Layer η
  startDirectory : Option String

/-- What to do with a layer of a known kind. -/
inductive Verdict where
  | refuse (error : BootError)
  /-- Look for the container of a game directory. -/
  | enter
  | launch (target : LaunchTarget)
deriving Repr, Inhabited, DecidableEq

namespace Session

variable {η : Type}

/-- The directory in which a layer starts that is loaded as it is; only discs have one. -/
def startDirectory? : LaunchTarget → Option String
  | .disc => some discStartDirectory
  | .executable | .trace => none

/-- The directory of an installed game as seen by the emulated machine, for the locator of its
container. -/
def memoryStickDirectory? (locator : Locator) : Option String :=
  (Text.fromFirst? Identify.gameDirectoryMark.toList locator.parent.normalized.toList).map
    fun rest => memoryStickRoot ++ String.ofList rest

/-- What to do with a layer, by its kind. -/
def verdict (locator : Locator) : ImageKind → Verdict
  | .installedGame => .enter
  | .container | .executable => .launch .executable
  | .disc _ => .launch .disc
  | .trace => .launch .trace
  | .ps1Game => .refuse .ps1Game
  | .rawDisc => .refuse .rawDisc
  | .directory => .refuse .directory
  | .saveState => .refuse .saveState
  | .saveData => .refuse .saveData
  | .archive format => .refuse (.ofArchive format)
  | .otherExecutable | .binary | .unknown => .refuse (.unknown locator.path)

/-- Closes a layer that is refused. -/
def refuse (error : BootError) (layer : Layer η) :
    StateM (World η) (Except BootError (Launch η)) := do
  layer.close
  pure (.error error)

/-- Refuses a layer that could not be examined, with the failure that it recorded last. -/
def refuseUnexamined (cause : IdentifyError) (layer : Layer η) :
    StateM (World η) (Except BootError (Launch η)) := do
  let (ioError, layer) ← layer.lastFailure
  refuse (.unexamined cause ioError) layer

/-- Accepts a layer that is loaded as it is. -/
def accept (target : LaunchTarget) (layer : Layer η) : Launch η where
  target := target
  layer := layer
  startDirectory := startDirectory? target

/-- Decides on the container of a game directory. -/
def prepareGameDirectory (opener : Opener η) (layer : Layer η) :
    StateM (World η) (Except BootError (Launch η)) := do
  let layer ← opener.enterGameDirectory layer
  let (present, layer) ← layer.isPresent
  if !present then
    refuse .noContainer layer
  else
    let (result, layer) ← layer.identify
    match result with
    | .error cause => refuseUnexamined cause layer
    | .ok (.disc .storeImage) => pure (.ok (accept .disc layer))
    | .ok .ps1Game => refuse .ps1Game layer
    | .ok _ =>
        let startDirectory := memoryStickDirectory? layer.locator
        pure (.ok { target := .executable, layer, startDirectory })

/-- Decides what to do with a layer. -/
def prepare (opener : Opener η) (layer : Layer η) :
    StateM (World η) (Except BootError (Launch η)) := do
  let (result, layer) ← layer.identify
  match result with
  | .error cause => refuseUnexamined cause layer
  | .ok kind =>
      match verdict layer.locator kind with
      | .refuse error => refuse error layer
      | .enter => prepareGameDirectory opener layer
      | .launch target => pure (.ok (accept target layer))

/-- Carries out a decision to load. -/
def launch (host : Host η) (decision : Launch η) : StateM (World η) (Except BootError Unit) := do
  match decision.startDirectory with
  | some directory => World.hostFocus.lift (host.files.setStartDirectory directory)
  | none => pure ()
  match ← host.loaders.forTarget decision.target decision.layer with
  | .ok () => pure (.ok ())
  | .error message => pure (.error (.refused message))

/-- Boots a layer.  The machine runs afterwards, or the attempt has failed. -/
def boot (layer : Layer η) : SessionM η (Except BootError Unit) := do
  modify fun session => { session with state := .booting }
  let session ← get
  let result ←
    match ← prepare session.opener layer with
    | .error error => pure (.error error)
    | .ok decision => launch session.host decision
  modify fun session =>
    { session with
      state :=
        match result with
        | .ok () => .running
        | .error _ => .failed }
  pure result

end Session

end PspBoot
