import PspBoot.Bytes
import PspBoot.Focus
import PspBoot.Locator

/-!
# Random-access sources

A `Source σ` is anything that bytes can be read from at any offset: a file, a remote resource, or
another source with a cache in front of it.  Its operations are actions on a state `σ`, so that a
source may fail now and answer later, remember what it has learnt, and count its failures.

A read gives the bytes that are available.  A short answer is no error by itself; the cause of a
failure is told by `lastFailure`, and `failureCount` shows whether a failure is a new one.
-/

namespace PspBoot

/-- The failures that a source has met. -/
structure FailureLog where
  /-- The text of the last failure. -/
  latest : Option String := none
  count : Nat := 0
deriving Repr, Inhabited, DecidableEq

/-- The log after one more failure. -/
def FailureLog.record (log : FailureLog) (text : String) : FailureLog where
  latest := some text
  count := log.count + 1

namespace FailureLog

/-- Every failure is counted. -/
theorem count_recordAll (log : FailureLog) (texts : List String) :
    (texts.foldl record log).count = log.count + texts.length := by
  induction texts generalizing log with
  | nil => rfl
  | cons text texts ih =>
    simp only [List.foldl_cons, ih, record, List.length_cons]
    omega

/-- The last failure is told, if there is a new one. -/
theorem latest_recordAll (log : FailureLog) (texts : List String) :
    (texts.foldl record log).latest = texts.getLast?.or log.latest := by
  induction texts generalizing log with
  | nil => rfl
  | cons text texts ih =>
    rw [List.foldl_cons, ih, List.getLast?_cons]
    cases texts.getLast? with
    | none => rfl
    | some last => rfl

end FailureLog

/-- The operations of a source on a state of type `σ`. -/
structure Source (σ : Type) where
  /-- What is read. -/
  locator : Locator
  /-- Whether the target is there. -/
  isPresent : StateM σ Bool
  isDirectory : StateM σ Bool
  /-- The length in bytes; zero if it is unknown. -/
  size : StateM σ Nat
  /-- The bytes from `offset` on, at most `len` of them. -/
  readAt : (offset len : Nat) → StateM σ Bytes
  lastFailure : StateM σ (Option String)
  /-- How many failures have been recorded; a source that keeps no account says zero. -/
  failureCount : StateM σ Nat := pure 0
  /-- Whether a directory has an entry of the given name; no, for a source that cannot tell. -/
  hasEntry : (name : String) → StateM σ Bool := fun _ => pure false

namespace Source

variable {σ τ : Type}

/-- The source as seen by the holder of a larger state. -/
def within (focus : Focus τ σ) (source : Source σ) : Source τ where
  locator := source.locator
  isPresent := focus.lift source.isPresent
  isDirectory := focus.lift source.isDirectory
  size := focus.lift source.size
  readAt offset len := focus.lift (source.readAt offset len)
  lastFailure := focus.lift source.lastFailure
  failureCount := focus.lift source.failureCount
  hasEntry name := focus.lift (source.hasEntry name)

/-- Exactly `len` bytes at `offset`; nothing if the answer has any other length. -/
def readExactly (source : Source σ) (offset len : Nat) : StateM σ (Option Bytes) := do
  let data ← source.readAt offset len
  pure (if data.length = len then some data else none)

/-- The 32-bit little-endian word at `offset`; zero if it cannot be read. -/
def readWord (source : Source σ) (offset : Nat) : StateM σ UInt32 := do
  match ← source.readExactly offset 4 with
  | some data => pure (UInt32.ofNat (Bytes.leNat data))
  | none => pure 0

end Source

end PspBoot
