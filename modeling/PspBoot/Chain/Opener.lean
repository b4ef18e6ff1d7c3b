import PspBoot.Chain.Factories

/-!
# Opening locators

`Opener.openLayer` opens a fresh chain for a locator:

* a network locator gives a remote source with retries, a disk cache unless the configuration has
  none, and a memory cache around it, so that failures are retried before anything is cached and
  repeated reads ask the memory first;
* any other locator goes to the factory responsible for it;
* without one, its path is looked up in the file system.
-/

namespace PspBoot

/-- What is needed to open locators. -/
structure Opener (η : Type) where
  factories : Factories η
  config : Config
  transport : Option (Transport η)

namespace Opener

variable {η : Type}

/-- The chain for a network locator. -/
def openRemote (opener : Opener η) (locator : Locator) : StateM (World η) (Layer η) := do
  let requests := (Layer.openRemote locator opener.transport).retrying opener.config.retry
  let persistent ←
    match opener.config.effectiveCacheDirectory with
    | some directory => requests.diskCached (some directory)
    | none => pure requests
  pure (persistent.memoryCached opener.config.memory)

/-- Opens a fresh chain for a locator. -/
def openLayer (opener : Opener η) (locator : Locator) : StateM (World η) (Layer η) :=
  if locator.isNetwork then
    opener.openRemote locator
  else
    match opener.factories.find? locator with
    | some (_, factory) => factory locator
    | none => Layer.openFile locator

end Opener

end PspBoot
