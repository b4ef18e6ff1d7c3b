import PspBoot.Proofs.Source.Retrying
import PspBoot.Source.Remote

/-!
# Transports and the sources on them

A transport is judged by what it does from some state of the host on.  `Transport.Reaches` follows
the requests for one resource and counts the failures in a row; `Transport.Serves` says that what
is answered is right, and `Transport.Relents` that it does not fail too often in a row.

A remote source on a transport that serves a content shows the content, with failures as the only
excuse (`Remote.shows`), and every failure is recorded (`Remote.recovers`).
-/

namespace PspBoot

variable {τ : Type}

namespace Transport

/-- The states of the host that requests for a resource of the given length can lead to, with the
number of failures in a row behind them.  Ranges are only asked for inside the resource. -/
inductive Reaches (transport : Transport τ) (url : String) (size : Nat) (start : τ) :
    Nat → τ → Prop
  | start : Reaches transport url size start 0 start
  | lengthTold {k host answer} (before : Reaches transport url size start k host)
      (h : (transport.lengthOf url host).1 = .ok answer) :
      Reaches transport url size start 0 (transport.lengthOf url host).2
  | lengthFailed {k host error} (before : Reaches transport url size start k host)
      (h : (transport.lengthOf url host).1 = .error error) :
      Reaches transport url size start (k + 1) (transport.lengthOf url host).2
  | rangeSent {k host offset len data} (before : Reaches transport url size start k host)
      (hlen : len ≠ 0) (hinside : offset + len ≤ size)
      (h : (transport.fetch url offset len host).1 = .ok data) :
      Reaches transport url size start 0 (transport.fetch url offset len host).2
  | rangeFailed {k host offset len error} (before : Reaches transport url size start k host)
      (hlen : len ≠ 0) (hinside : offset + len ≤ size)
      (h : (transport.fetch url offset len host).1 = .error error) :
      Reaches transport url size start (k + 1) (transport.fetch url offset len host).2

/-- From a state of the host on, whatever is answered is right: the length is that of the content,
and a range is answered with a beginning of it, of `least` bytes unless it is shorter. -/
structure Serves (transport : Transport τ) (url : String) (content : Bytes) (least : Nat)
    (start : τ) : Prop where
  length : ∀ k host answer, transport.Reaches url content.length start k host →
    (transport.lengthOf url host).1 = .ok answer → answer = some content.length
  range : ∀ k host offset len data, transport.Reaches url content.length start k host →
    len ≠ 0 → offset + len ≤ content.length → (transport.fetch url offset len host).1 = .ok data →
    Delivered least (Bytes.slice content offset len) data False

/-- From a state of the host on, the transport fails less than `patience` times in a row. -/
def Relents (transport : Transport τ) (url : String) (content : Bytes) (patience : Nat)
    (start : τ) : Prop :=
  ∀ k host, transport.Reaches url content.length start k host → k < patience

section

variable {transport : Transport τ} {url : String} {content : Bytes} {least size k j : Nat}
  {start middle host : τ}

/-- What is reached from a state that is reached is reached. -/
theorem Reaches.trans (h : transport.Reaches url size start k middle)
    (hlater : transport.Reaches url size middle j host) :
    ∃ i, transport.Reaches url size start i host := by
  induction hlater with
  | start => exact ⟨k, h⟩
  | lengthTold _ htold ih =>
    obtain ⟨i, hi⟩ := ih
    exact ⟨0, hi.lengthTold htold⟩
  | lengthFailed _ hfailed ih =>
    obtain ⟨i, hi⟩ := ih
    exact ⟨i + 1, hi.lengthFailed hfailed⟩
  | rangeSent _ hlen hinside hsent ih =>
    obtain ⟨i, hi⟩ := ih
    exact ⟨0, hi.rangeSent hlen hinside hsent⟩
  | rangeFailed _ hlen hinside hfailed ih =>
    obtain ⟨i, hi⟩ := ih
    exact ⟨i + 1, hi.rangeFailed hlen hinside hfailed⟩

/-- A transport that serves a content goes on doing so. -/
theorem Serves.later (h : transport.Serves url content least start)
    (hreach : transport.Reaches url content.length start k middle) :
    transport.Serves url content least middle where
  length _ host answer hhost htold := by
    obtain ⟨i, hi⟩ := hreach.trans hhost
    exact h.length i host answer hi htold
  range _ host offset len data hhost hlen hinside hsent := by
    obtain ⟨i, hi⟩ := hreach.trans hhost
    exact h.range i host offset len data hi hlen hinside hsent

end

end Transport

namespace Remote

variable {transport : Transport τ} {locator : Locator} {content : Bytes} {least patience : Nat}
  {start : τ}

/-- The states of a remote source behind `k` failures in a row: no wrong length is remembered. -/
def After (transport : Transport τ) (url : String) (content : Bytes) (start : τ) (k : Nat)
    (s : Remote × τ) : Prop :=
  transport.Reaches url content.length start k s.2 ∧
    ∀ n, s.1.rememberedSize = some n → n = content.length

/-- Those of them in which the length is known. -/
def Knowing (transport : Transport τ) (url : String) (content : Bytes) (start : τ) (k : Nat)
    (s : Remote × τ) : Prop :=
  transport.Reaches url content.length start k s.2 ∧ s.1.rememberedSize = some content.length

theorem Knowing.after {url : String} {k : Nat} {s : Remote × τ}
    (h : Knowing transport url content start k s) : After transport url content start k s := by
  refine ⟨h.1, fun n hn => ?_⟩
  rw [h.2] at hn
  exact (Option.some.inj hn).symm

/-- What is known at first is nothing, and so nothing wrong. -/
theorem after_initial (transport : Transport τ) (locator : Locator) (content : Bytes) (start : τ) :
    After transport locator.path content start 0 (initial locator (some transport), start) :=
  ⟨.start, fun n hn => by simp [initial] at hn⟩

/-- The failures recorded for a remote source. -/
def failed (s : Remote × τ) : Nat :=
  s.1.failures.count

theorem size?_of_known {s : Remote × τ} {n : Nat} (url : String)
    (h : s.1.rememberedSize = some n) : size? (some transport) url s = (some n, s) := by
  simp [size?, h]

/-- A length that is not known is asked for, and remembered if it is told. -/
theorem size?_of_told {s : Remote × τ} {url : String} {n : Nat} {host : τ}
    (h : s.1.rememberedSize = none) (htold : transport.lengthOf url s.2 = (.ok (some n), host)) :
    size? (some transport) url s = (some n, { s.1 with rememberedSize := some n }, host) := by
  simp [size?, h, htold]

/-- A resource that is missing is not remembered. -/
theorem size?_of_missing {s : Remote × τ} {url : String} {host : τ}
    (h : s.1.rememberedSize = none) (htold : transport.lengthOf url s.2 = (.ok none, host)) :
    size? (some transport) url s = (none, (s.1, host)) := by
  simp [size?, h, htold]

theorem size?_of_none {s : Remote × τ} (url : String) (h : s.1.rememberedSize = none) :
    size? (none : Option (Transport τ)) url s = (none, s) := by
  simp [size?, h]

/-- A request for the length that fails is recorded. -/
theorem size?_of_failed {s : Remote × τ} {url : String} {error : TransportError} {host : τ}
    (h : s.1.rememberedSize = none) (hfailed : transport.lengthOf url s.2 = (.error error, host)) :
    size? (some transport) url s =
      (none, { s.1 with failures := s.1.failures.record error.message }, host) := by
  simp [size?, fail, h, hfailed]

section

variable {s : Remote × τ} {n offset len : Nat} {url : String} {host : τ}
  (h : s.1.rememberedSize = some n)
include h

/-- A range behind the end, or of no bytes, is not asked for. -/
theorem readAt_of_outside (hnothing : n ≤ offset ∨ len = 0) :
    readAt (some transport) url offset len s = ([], s) := by
  simp [readAt, size?_of_known url h, hnothing]

/-- A range that lies partly inside a resource of known length is asked for. -/
theorem readAt_of_sent (hinside : ¬(n ≤ offset ∨ len = 0)) {data : Bytes}
    (hsent : transport.fetch url offset (min len (n - offset)) s.2 = (.ok data, host)) :
    readAt (some transport) url offset len s =
      (data.take (min len (n - offset)), s.1, host) := by
  simp [readAt, size?_of_known url h, hinside, hsent]

/-- A request for a range that fails is recorded. -/
theorem readAt_of_failed (hinside : ¬(n ≤ offset ∨ len = 0)) {error : TransportError}
    (hfailed : transport.fetch url offset (min len (n - offset)) s.2 = (.error error, host)) :
    readAt (some transport) url offset len s =
      ([], { s.1 with failures := s.1.failures.record error.message }, host) := by
  simp [readAt, fail, size?_of_known url h, hinside, hfailed]

end

/-- The length is found, or the failure to find it is recorded. -/
theorem attempted_size? {url : String} (h : transport.Serves url content least start) {k : Nat}
    {s : Remote × τ} (hs : After transport url content start k s) :
    Attempted failed (fun t => ∃ j, Knowing transport url content start j t)
      (After transport url content start (k + 1)) (· = some content.length) (· = none) s
      (size? (some transport) url s) := by
  obtain ⟨hreach, hremembered⟩ := hs
  cases hsize : s.1.rememberedSize with
  | some n =>
    obtain rfl := hremembered n hsize
    rw [size?_of_known url hsize]
    exact .inl ⟨rfl, ⟨k, hreach, hsize⟩, rfl⟩
  | none =>
    rcases hresult : transport.lengthOf url s.2 with ⟨error | answer, host⟩
    · have hnext := hreach.lengthFailed (congrArg Prod.fst hresult)
      rw [hresult] at hnext
      rw [size?_of_failed hsize hresult]
      exact .inr ⟨rfl, ⟨hnext, hremembered⟩, Nat.succ_ne_self _⟩
    · have htold : (transport.lengthOf url s.2).1 = .ok answer := congrArg Prod.fst hresult
      obtain rfl := h.length k s.2 answer hreach htold
      have hnext := hreach.lengthTold htold
      rw [hresult] at hnext
      rw [size?_of_told hsize hresult]
      exact .inl ⟨rfl, ⟨0, hnext, rfl⟩, rfl⟩

/-- Where the length is known a range is delivered, or the failure to deliver it is recorded. -/
theorem attempted_readAt {url : String} (h : transport.Serves url content least start) {k : Nat}
    {s : Remote × τ} (offset len : Nat) (hs : Knowing transport url content start k s) :
    Attempted failed (fun t => ∃ j, Knowing transport url content start j t)
      (Knowing transport url content start (k + 1))
      (fun data => Delivered least (Bytes.slice content offset len) data False) (· = []) s
      (readAt (some transport) url offset len s) := by
  obtain ⟨hreach, hsize⟩ := hs
  by_cases hnothing : content.length ≤ offset ∨ len = 0
  · have hempty : Bytes.slice content offset len = [] := Bytes.slice_eq_nil.mpr (by omega)
    rw [readAt_of_outside hsize hnothing, hempty]
    exact .inl ⟨.whole, ⟨k, hreach, hsize⟩, rfl⟩
  · let wanted := min len (content.length - offset)
    have hlen : wanted ≠ 0 := by omega
    have hinside : offset + wanted ≤ content.length := by omega
    rcases hresult : transport.fetch url offset wanted s.2 with ⟨error | data, host⟩
    · have hnext := hreach.rangeFailed hlen hinside (congrArg Prod.fst hresult)
      rw [hresult] at hnext
      rw [readAt_of_failed hsize hnothing hresult]
      exact .inr ⟨rfl, ⟨hnext, hsize⟩, Nat.succ_ne_self _⟩
    · have hsent : (transport.fetch url offset wanted s.2).1 = .ok data :=
        congrArg Prod.fst hresult
      have hdata := h.range k s.2 offset wanted data hreach hlen hinside hsent
      have hnext := hreach.rangeSent hlen hinside hsent
      rw [hresult] at hnext
      rw [Bytes.slice_clip] at hdata
      have hlength := hdata.isPrefix.length_le
      rw [Bytes.length_slice] at hlength
      rw [readAt_of_sent hsize hnothing hresult, List.take_of_length_le hlength]
      exact .inl ⟨hdata, ⟨0, hnext, hsize⟩, rfl⟩

/-- A read asks for the length first. -/
theorem readAt_of_size? {s : Remote × τ} {n : Nat} (url : String) (offset len : Nat)
    (h : (size? (some transport) url s).1 = some n)
    (hknown : (size? (some transport) url s).2.1.rememberedSize = some n) :
    readAt (some transport) url offset len s =
      readAt (some transport) url offset len (size? (some transport) url s).2 := by
  simp [readAt, size?_of_known url hknown, h]

/-- Nothing is read of a resource whose length is not told. -/
theorem readAt_of_size?_none {s : Remote × τ} (url : String) (offset len : Nat)
    (h : (size? (some transport) url s).1 = none) :
    readAt (some transport) url offset len s = ([], (size? (some transport) url s).2) := by
  simp [readAt, h]

section

variable (h : transport.Serves locator.path content least start)
include h

/-- **A remote source shows the content that its transport serves**, unless requests fail. -/
theorem shows {excuse : Prop}
    (hfailures : transport.Relents locator.path content 1 start ∨ excuse) :
    (Source.remote locator (some transport)).Shows content least
      (fun s => ∃ k, After transport locator.path content start k s) (fun _ => excuse) := by
  -- Wherever a failure has been recorded there is the excuse.
  have hexcuse {k : Nat} {s : Remote × τ}
      (hs : After transport locator.path content start (k + 1) s) : excuse := by
    rcases hfailures with hnever | hexcuse
    · have := hnever (k + 1) s.2 hs.1
      omega
    · exact hexcuse
  constructor
  case isPresent =>
    intro s ⟨k, hs⟩
    rcases attempted_size? h hs with ⟨hfound, ⟨j, hnext⟩, -⟩ | ⟨-, hnext, -⟩
    · refine ⟨⟨j, hnext.after⟩, id, .inl ?_⟩
      simp [Source.remote, hfound]
    · exact ⟨⟨k + 1, hnext⟩, id, .inr (hexcuse hnext)⟩
  case isDirectory => exact .pure fun _ _ => rfl
  case size =>
    intro s ⟨k, hs⟩
    rcases attempted_size? h hs with ⟨hfound, ⟨j, hnext⟩, -⟩ | ⟨hfound, hnext, -⟩
    · refine ⟨⟨j, hnext.after⟩, id, .inl ?_⟩
      simp [Source.remote, hfound]
    · refine ⟨⟨k + 1, hnext⟩, id, .inr ⟨?_, hexcuse hnext⟩⟩
      simp [Source.remote, hfound]
  case readAt =>
    intro offset len s ⟨k, hs⟩
    change Outcome _ _ _ s (readAt (some transport) locator.path offset len s)
    rcases attempted_size? h hs with ⟨hfound, ⟨j, hnext⟩, -⟩ | ⟨hfound, hnext, -⟩
    · rw [readAt_of_size? locator.path offset len hfound hnext.2]
      rcases attempted_readAt h offset len hnext with ⟨hdata, ⟨i, hlast⟩, -⟩ | ⟨hdata, hlast, -⟩
      · exact ⟨⟨i, hlast.after⟩, id, hdata.imp False.elim⟩
      · refine ⟨⟨j + 1, hlast.after⟩, id, ?_⟩
        rw [hdata]
        exact .nil (hexcuse hlast.after)
    · rw [readAt_of_size?_none locator.path offset len hfound]
      exact ⟨⟨k + 1, hnext⟩, id, .nil (hexcuse hnext)⟩
  case failureCount => exact fun s hs => .same hs trivial
  case hasEntry => exact fun _ => .pure fun _ _ => rfl

/-- **A remote source records its failures**, and forgets them once a request is answered. -/
theorem recovers (hfull : content.length ≤ least)
    (hrelents : transport.Relents locator.path content patience start) :
    (Source.remote locator (some transport)).Recovers content patience
      (After transport locator.path content start) (Knowing transport locator.path content start)
      failed where
  bounded k s hs := hrelents k s.2 hs.1
  known _ _ hs := hs.after
  isPresent k s hs := by
    change Attempted _ _ _ _ _ s ((size? (some transport) locator.path s).1.isSome,
      (size? (some transport) locator.path s).2)
    rcases attempted_size? h hs with ⟨hfound, ⟨j, hnext⟩, hsame⟩ | ⟨hfound, hnext⟩
    · rw [hfound]
      exact .inl ⟨rfl, ⟨j, hnext.after⟩, hsame⟩
    · rw [hfound]
      exact .inr ⟨rfl, hnext⟩
  isDirectory := .pure fun _ _ => rfl
  size k s hs := by
    change Attempted _ _ _ _ _ s ((size? (some transport) locator.path s).1.getD 0,
      (size? (some transport) locator.path s).2)
    rcases attempted_size? h hs with ⟨hfound, hnext⟩ | ⟨hfound, hnext⟩
    · rw [hfound]
      exact .inl ⟨rfl, hnext⟩
    · rw [hfound]
      exact .inr ⟨rfl, hnext⟩
  readAt k s offset len hs := by
    rcases attempted_readAt h offset len hs with ⟨hdata, hnext⟩ | hfailed
    · refine .inl ⟨(hdata.eq_or ?_).resolve_right id, hnext⟩
      rw [Bytes.length_slice]
      omega
    · exact .inr hfailed
  failureCount _ := rfl
  hasEntry _ := .pure fun _ _ => rfl

end

end Remote

end PspBoot
