import PspBoot.Checked
import PspBoot.Source.Basic

/-!
# Remote sources

A remote resource is read through a `Transport`, which the host supplies: it tells the length of
a resource and fetches ranges of it.  The length is asked for when it is first needed.  Only a
length that was told is remembered; a resource that is missing, or a request that failed, is
asked for again.  Every failed request is recorded.
-/

namespace PspBoot

/-- Why a request was not answered. -/
inductive TransportError where
  /-- The server answered with an unexpected status. -/
  | status (code : Nat) (url : String)
  /-- The request could not be completed. -/
  | failed (reason : String)
deriving Repr, Inhabited, DecidableEq

/-- The text recorded for a failed request. -/
def TransportError.message : TransportError → String
  | .status code url => "HTTP status " ++ toString code ++ " for " ++ url
  | .failed reason => "transport failure: " ++ reason

/-- Requests for the length and for ranges of a resource, as actions on the host's state. -/
structure Transport (τ : Type) where
  /-- The length of the resource; none if there is no such resource. -/
  lengthOf : (url : String) → StateM τ (Except TransportError (Option Nat))
  /-- Bytes of the resource from `offset` on; it may be fewer than `len`. -/
  fetch : (url : String) → (offset len : Nat) → StateM τ (Except TransportError Bytes)

/-- What is known of a remote resource. -/
structure Remote where
  /-- The length of the resource, once a request has told it. -/
  rememberedSize : Option Nat := none
  failures : FailureLog := {}
deriving Repr, Inhabited, DecidableEq

namespace Remote

variable {τ : Type}

/-- What is known before the first request.  Without a transport that is a failure. -/
def initial (locator : Locator) (transport : Option (Transport τ)) : Remote :=
  match transport with
  | some _ => {}
  | none =>
      { failures :=
          ({} : FailureLog).record ("no network transport configured for " ++ locator.path) }

/-- Records a failed request. -/
def fail (error : TransportError) : StateM (Remote × τ) Unit :=
  Focus.first.lift <| modify fun remote =>
    { remote with failures := remote.failures.record error.message }

/-- The length of the resource, from memory or by a request. -/
def size? (transport : Option (Transport τ)) (url : String) :
    StateM (Remote × τ) (Option Nat) := do
  let remote ← Focus.first.lift get
  match remote.rememberedSize, transport with
  | some size, _ => pure (some size)
  | none, none => pure none
  | none, some transport =>
      match ← Focus.second.lift (transport.lengthOf url) with
      | .ok (some size) =>
          Focus.first.lift (modify fun remote => { remote with rememberedSize := some size })
          pure (some size)
      | .ok none => pure none
      | .error error =>
          fail error
          pure none

/-- The bytes of a range that lie inside the resource; none if the request fails.  An answer that
is too long is cut. -/
def readAt (transport : Option (Transport τ)) (url : String) (offset len : Nat) :
    StateM (Remote × τ) Bytes := do
  match transport with
  | none => pure []
  | some transport =>
      let size := (← size? (some transport) url).getD 0
      if size ≤ offset ∨ len = 0 then
        pure []
      else
        let wanted := min len (size - offset)
        match ← Focus.second.lift (transport.fetch url offset wanted) with
        | .ok data => pure (data.take wanted)
        | .error error =>
            fail error
            pure []

/-- `readAt` with every step checked. -/
def readAtChecked (transport : Option (Transport τ)) (url : String) : CheckedRead (Remote × τ) :=
  fun offset len => do
    match transport with
    | none => pure []
    | some transport =>
        let size := (← Checked.lift (size? (some transport) url)).getD 0
        if size ≤ offset ∨ len = 0 then
          pure []
        else
          let room ← Checked.sub size offset
          let wanted := min len room
          match ← Checked.lift (Focus.second.lift (transport.fetch url offset wanted)) with
          | .ok data => pure (data.take wanted)
          | .error error =>
              Checked.lift (fail error)
              pure []

end Remote

/-- A remote resource as a source. -/
def Source.remote {τ : Type} (locator : Locator) (transport : Option (Transport τ)) :
    Source (Remote × τ) where
  locator := locator
  isPresent := do pure (← Remote.size? transport locator.path).isSome
  isDirectory := pure false
  size := do pure ((← Remote.size? transport locator.path).getD 0)
  readAt := Remote.readAt transport locator.path
  lastFailure := do pure (← Focus.first.lift get).failures.latest
  failureCount := do pure (← Focus.first.lift get).failures.count

end PspBoot
