import PspBoot.Proofs.Source.Remote
import PspBoot.Proofs.Source.Twins

/-!
# The requests of a remote source

`transport.recorded` is a transport that keeps a record of the requests made of it.  On either of the
two a remote source does the same (`Remote.twins_recorded`), and what it knows tallies with the record:
the failures that it tells are the requests that failed, and a length that was told is not asked for
again.
-/

namespace PspBoot

variable {τ : Type}

/-- A request to a transport, with the answer. -/
inductive Request where
  | length (url : String) (answer : Except TransportError (Option Nat))
  | range (url : String) (offset len : Nat) (answer : Except TransportError Bytes)

namespace Request

/-- The text of the error that came instead of an answer. -/
def failure? : Request → Option String
  | .length _ (.error error) | .range _ _ _ (.error error) => some error.message
  | .length _ (.ok _) | .range _ _ _ (.ok _) => none

/-- The texts of all errors, the last one last. -/
def failures (requests : List Request) : List String :=
  requests.filterMap failure?

theorem failures_append (requests made : List Request) :
    failures (requests ++ made) = failures requests ++ failures made :=
  List.filterMap_append

theorem failures_singleton (request : Request) : failures [request] = request.failure?.toList := by
  cases hfailure : request.failure? with
  | none => simp [failures, hfailure]
  | some text => simp [failures, hfailure]

/-- Whether the length was asked for. -/
def asksLength : Request → Bool
  | .length _ _ => true
  | .range _ _ _ _ => false

/-- Whether the length was asked for and told. -/
def tellsLength : Request → Bool
  | .length _ (.ok (some _)) => true
  | _ => false

/-- No length is asked for that has been told. -/
def AskedOnce (requests : List Request) : Prop :=
  requests.Pairwise fun request later => request.tellsLength = true → later.asksLength = false

end Request

/-- The transport with a record of the requests made of it, the latest last. -/
def Transport.recorded (transport : Transport τ) : Transport (List Request × τ) where
  lengthOf url := do
    let answer ← Focus.second.lift (transport.lengthOf url)
    Focus.first.lift (modify (· ++ [.length url answer]))
    pure answer
  fetch url offset len := do
    let answer ← Focus.second.lift (transport.fetch url offset len)
    Focus.first.lift (modify (· ++ [.range url offset len answer]))
    pure answer

/-- What a remote source knows tallies with the requests that have been made. -/
structure Remote.Tallies (locator : Locator) (transport : Option (Transport τ))
    (requests : List Request) (remote : Remote) : Prop where
  failures : remote.failures =
    (Request.failures requests).foldl FailureLog.record (initial locator transport).failures
  unserved : transport = none → requests = []
  untold : remote.rememberedSize = none → ∀ request ∈ requests, request.tellsLength = false
  once : Request.AskedOnce requests

/-- A remote source whose requests are recorded, and the same source without the record. -/
structure Remote.Heard (locator : Locator) (transport : Option (Transport τ))
    (before : List Request) (s : Remote × (List Request × τ)) (t : Remote × τ) : Prop where
  same : t = (s.1, s.2.2)
  tallies : s.1.Tallies locator transport s.2.1
  grows : before <+: s.2.1

namespace Remote

variable {locator : Locator} {transport : Option (Transport τ)} {requests before : List Request}
  {remote : Remote}

/-- Nothing has been asked for at first. -/
theorem tallies_initial (locator : Locator) (transport : Option (Transport τ)) :
    (initial locator transport).Tallies locator transport [] where
  failures := rfl
  unserved _ := rfl
  untold _ := nofun
  once := .nil

/-- One more request.  The length is asked for only while it is not known, and is known once it has
been told; an error is recorded, and nothing else is. -/
theorem Tallies.append (h : remote.Tallies locator transport requests) (hserved : transport ≠ none)
    {next : Remote} {request : Request}
    (hasks : request.asksLength = true → remote.rememberedSize = none)
    (hfailures : next.failures = request.failure?.toList.foldl FailureLog.record remote.failures)
    (huntold : next.rememberedSize = none →
      remote.rememberedSize = none ∧ request.tellsLength = false) :
    next.Tallies locator transport (requests ++ [request]) where
  failures := by
    rw [hfailures, h.failures, ← List.foldl_append, Request.failures_append,
      Request.failures_singleton]
  unserved hnone := absurd hnone hserved
  untold hnone := by
    obtain ⟨hbefore, hrequest⟩ := huntold hnone
    exact List.forall_mem_append.mpr ⟨h.untold hbefore, List.forall_mem_singleton.mpr hrequest⟩
  once := by
    refine List.pairwise_append.mpr ⟨h.once, List.pairwise_singleton _ _, ?_⟩
    intro earlier hearlier later hlater htold
    obtain rfl := List.mem_singleton.mp hlater
    refine Bool.eq_false_iff.mpr fun hasked => ?_
    have hunknown := h.untold (hasks hasked) earlier hearlier
    rw [hunknown] at htold
    cases htold

/-- The record grows by a request, and otherwise the two sources go on in the same way. -/
theorem Heard.append {s : Remote × (List Request × τ)} {t : Remote × τ}
    (h : Heard locator transport before s t) (hserved : transport ≠ none) (next : Remote)
    (request : Request) (host : τ)
    (hasks : request.asksLength = true → s.1.rememberedSize = none)
    (hfailures : next.failures = request.failure?.toList.foldl FailureLog.record s.1.failures)
    (huntold : next.rememberedSize = none →
      s.1.rememberedSize = none ∧ request.tellsLength = false) :
    Heard locator transport before (next, (s.2.1 ++ [request], host)) (next, host) where
  same := rfl
  tallies := h.tallies.append hserved hasks hfailures huntold
  grows := h.grows.trans (List.prefix_append _ _)

theorem alike_size? (locator : Locator) (transport : Option (Transport τ))
    (before : List Request) (url : String) :
    Alike (Heard locator transport before) (size? (transport.map .recorded) url)
      (size? transport url) := by
  rintro ⟨remote, requests, host⟩ _ h
  obtain rfl := h.same
  cases hsize : remote.rememberedSize with
  | some n => simpa [size?, hsize] using h
  | none =>
    cases transport with
    | none => simpa [size?, hsize] using h
    | some transport =>
      rw [Option.map_some]
      have hserved := Option.some_ne_none transport
      have hheard {answer : Except TransportError (Option Nat)} {host' : τ}
          (hrun : transport.lengthOf url host = (answer, host')) :
          transport.recorded.lengthOf url (requests, host) =
            (answer, (requests ++ [.length url answer], host')) := by
        simp [Transport.recorded, hrun]
      rcases hrun : transport.lengthOf url host with ⟨error | (_ | n), host'⟩
      · rw [size?_of_failed hsize (hheard hrun), size?_of_failed hsize hrun]
        exact ⟨rfl, h.append hserved _ _ host' (fun _ => hsize) rfl fun _ => ⟨hsize, rfl⟩⟩
      · rw [size?_of_missing hsize (hheard hrun), size?_of_missing hsize hrun]
        exact ⟨rfl, h.append hserved _ _ host' (fun _ => hsize) rfl fun _ => ⟨hsize, rfl⟩⟩
      · rw [size?_of_told hsize (hheard hrun), size?_of_told hsize hrun]
        exact ⟨rfl, h.append hserved _ _ host' (fun _ => hsize) rfl fun hnone =>
          absurd hnone (Option.some_ne_none n)⟩

theorem alike_readAt (locator : Locator) (transport : Option (Transport τ))
    (before : List Request) (url : String) (offset len : Nat) :
    Alike (Heard locator transport before) (readAt (transport.map .recorded) url offset len)
      (readAt transport url offset len) := by
  cases transport with
  | none => exact .pure []
  | some transport =>
    apply (alike_size? locator (some transport) before url).bind
    intro size
    refine .ite (.pure []) ?_
    rintro ⟨remote, requests, host⟩ _ h
    obtain rfl := h.same
    have hserved := Option.some_ne_none transport
    generalize min len (size.getD 0 - offset) = wanted
    rcases hrun : transport.fetch url offset wanted host with ⟨error | data, host'⟩
    · have hnext := h.append hserved
        { remote with failures := remote.failures.record error.message }
        (.range url offset wanted (.error error)) host'
        (fun hasks => absurd hasks Bool.false_ne_true) rfl fun hsize => ⟨hsize, rfl⟩
      simpa [Transport.recorded, hrun, fail] using hnext
    · have hnext := h.append hserved remote (.range url offset wanted (.ok data)) host'
        (fun hasks => absurd hasks Bool.false_ne_true) rfl fun hsize => ⟨hsize, rfl⟩
      simpa [Transport.recorded, hrun] using hnext

/-- **With and without a record a remote source does the same**, and what it knows tallies with the
record. -/
theorem twins_recorded (locator : Locator) (transport : Option (Transport τ))
    (before : List Request) :
    (Source.remote locator (transport.map .recorded)).Twins (Heard locator transport before)
      (Source.remote locator transport) where
  isPresent := (alike_size? locator transport before locator.path).bind fun _ => .pure _
  isDirectory := .pure _
  size := (alike_size? locator transport before locator.path).bind fun _ => .pure _
  readAt := alike_readAt locator transport before locator.path
  lastFailure := by
    rintro s _ h
    obtain rfl := h.same
    exact ⟨rfl, h⟩
  failureCount := by
    rintro s _ h
    obtain rfl := h.same
    exact ⟨rfl, h⟩
  hasEntry _ := .pure _

end Remote

end PspBoot
