import PspBoot.Chain.Opener
import PspBoot.Image.Identify

/-!
# Identification of many locators

Each locator of a list is opened through a chain of its own, identified and closed again.  The
results stand in the order of the list, and an observer is told of each locator together with the
number of those that are done.
-/

namespace PspBoot

/-- The result of an identification. -/
abbrev Identified := Except IdentifyError ImageKind

namespace Layer

/-- What the target of a layer is. -/
def identify {η : Type} (layer : Layer η) : StateM (World η) (Identified × Layer η) :=
  layer.use (PspBoot.identify layer.chain.source)

end Layer

namespace Opener

variable {η : Type}

/-- Opens a locator, identifies it and closes it, with something to be done before it is
closed. -/
def surveyOne (opener : Opener η) (locator : Locator)
    (beforeClose : StateM (World η) Unit) : StateM (World η) Identified := do
  let layer ← opener.openLayer locator
  let (result, layer) ← layer.identify
  beforeClose
  layer.close
  pure result

/-- Identifies the locators one after the other, `done` of them being done before. -/
def surveyFrom (opener : Opener η) (onEach : Locator → Nat → StateM (World η) Unit) :
    (done : Nat) → List Locator → StateM (World η) (List Identified)
  | _, [] => pure []
  | done, locator :: locators => do
      let result ← opener.surveyOne locator (onEach locator (done + 1))
      let results ← surveyFrom opener onEach (done + 1) locators
      pure (result :: results)

/-- Identifies all locators, and tells an observer of each one. -/
def surveyEach (opener : Opener η) (locators : List Locator)
    (onEach : Locator → Nat → StateM (World η) Unit) : StateM (World η) (List Identified) :=
  opener.surveyFrom onEach 0 locators

/-- Identifies all locators. -/
def survey (opener : Opener η) (locators : List Locator) :
    StateM (World η) (List Identified) :=
  opener.surveyEach locators fun _ _ => pure ()

end Opener

end PspBoot
