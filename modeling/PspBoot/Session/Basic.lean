import PspBoot.Session.GameDirectory

/-!
# Sessions

A session is what one emulated machine needs to open and boot games: how chains are built, the
host's collaborators, the state of the machine and the disc in its drive.  The collaborators act
on the host's state.  A loader receives the layer it loads and has to close it when it is done;
the mapper only looks at the disc.
-/

namespace PspBoot

/-- The boot state of the machine. -/
inductive MachineState where
  /-- Nothing was loaded yet. -/
  | idle
  | booting
  | running
  /-- The last boot attempt failed. -/
  | failed
deriving Repr, Inhabited, DecidableEq

/-- The text shown for a state. -/
def MachineState.message : MachineState → String
  | .idle => "uninitialized"
  | .booting => "booting"
  | .running => "running"
  | .failed => "boot error"

/-- The file system of the emulated machine. -/
structure EmulatedFiles (η : Type) where
  /-- Sets the directory in which the game starts. -/
  setStartDirectory : (directory : String) → StateM η Unit
  /-- Whether something is mounted under a name. -/
  hasMount : (mount : String) → StateM η Bool

/-- What takes a layer over once its kind has been accepted.  A refusal is told by its text. -/
abbrev Loader (η : Type) := Layer η → StateM (World η) (Except String Unit)

/-- The loaders of the emulated machine. -/
structure Loaders (η : Type) where
  disc : Loader η
  executable : Loader η
  trace : Loader η

/-- What maps the contents of a disc into the memory of the emulated machine. -/
structure MemoryMapper (η : Type) where
  /-- Maps a new disc, given the chain that reads it; false if that is impossible. -/
  remap : (disc : Chain η) → StateM (disc.State × World η) Bool

/-- The collaborators that the host supplies. -/
structure Host (η : Type) where
  files : EmulatedFiles η
  loaders : Loaders η
  mapper : MemoryMapper η

/-- The boot context of one emulated machine. -/
structure Session (η : Type) where
  opener : Opener η
  host : Host η
  state : MachineState := .idle
  /-- The disc that was exchanged last, if any was. -/
  disc : Option (Layer η) := none

/-- Actions of a session in the world. -/
abbrev SessionM (η : Type) := StateT (Session η) (StateM (World η))

namespace Session

variable {η : Type}

/-- The name under which the disc is mounted. -/
def discDrive : String := "disc0:"

/-- The directory in which every game on a disc starts. -/
def discStartDirectory : String := "disc0:/PSP_GAME/USRDIR"

/-- The root of the memory stick. -/
def memoryStickRoot : String := "ms0:/"

/-- Opens a fresh chain for a locator. -/
def openLocator (locator : Locator) : SessionM η (Layer η) := do
  (← get).opener.openLayer locator

/-- Registers a factory for the beginning of a path. -/
def addFactory (beginning : String) (factory : Factory η) : SessionM η Unit :=
  modify fun session =>
    { session with
      opener :=
        { session.opener with factories := session.opener.factories.register beginning factory } }

end Session

end PspBoot
