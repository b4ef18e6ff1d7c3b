import PspBoot.Session.Basic

/-!
# Exchanging the disc

A running game may ask for another disc.  The replacement is put into the drive as soon as it is
found to exist, and it stays there even if it turns out to be no disc, or if memory cannot be
mapped for it.
-/

namespace PspBoot.Session

variable {η : Type}

/-- What is added to the name of a kind that is no disc. -/
def remark : ImageKind → String
  | .rawDisc => "ISO in Mode 2: Not a PSP game"
  | _ => ""

/-- Puts a disc into the drive and closes the one that was there. -/
def insertDisc (disc : Layer η) : SessionM η Unit := do
  let session ← get
  match session.disc with
  | some old => old.close
  | none => pure ()
  set { session with disc := some disc }

/-- Lets an action use the disc in the drive; nothing if there is none. -/
def useDisc {α : Type} (action : (disc : Chain η) → StateM (disc.State × World η) α) :
    SessionM η (Option α) := do
  match (← get).disc with
  | none => pure none
  | some disc =>
      let (result, disc) ← disc.use (action disc.chain)
      modify fun session => { session with disc := some disc }
      pure (some result)

/-- Maps memory for the disc in the drive, if it is identified as a disc. -/
def mapDisc (mapper : MemoryMapper η) (disc : Chain η) :
    StateM (disc.State × World η) (Except ExchangeError Unit) := do
  match ← identify disc.source with
  | .error error => pure (.error (.notADisc "identification error" error.message))
  | .ok kind =>
      if kind.isDisc then
        if ← mapper.remap disc then
          pure (.ok ())
        else
          pure (.error .notMapped)
      else
        pure (.error (.notADisc kind.name (remark kind)))

/-- Exchanges the disc. -/
def exchangeDisc (locator : Locator) : SessionM η (Except ExchangeError Unit) := do
  let session ← get
  if !(← World.hostFocus.lift (session.host.files.hasMount discDrive)) then
    pure (.error .noDrive)
  else
    let layer ← session.opener.openLayer locator
    let (present, layer) ← layer.isPresent
    if !present then
      layer.close
      pure (.error (.notFound locator.path))
    else
      let disc ← session.opener.enterGameDirectory layer
      insertDisc disc
      pure ((← useDisc (mapDisc session.host.mapper)).getD (.error .noDrive))

end PspBoot.Session
