import PspBoot.Proofs.Checked
import PspBoot.Proofs.Source.Remote
import PspBoot.Proofs.Source.Retrying

/-!
# Reads within bounds

Each source of a network chain computes where a read begins and ends, and trusts the source behind
it.  The contract that its reads keep is `Source.Bounded`: a read from an offset that is a word is
followed with every step checked, so that no operation leaves the range of a word, and it delivers no
more than was asked for and nothing that would lie behind the largest offset.  The contract says
nothing of the bytes; so it holds of every transport, and of any bytes in the blocks of a store.

Buffers are another matter, since a cache asks for one that can hold all it is going to deliver.
`room` says how long a buffer a read asks for, and the read stops just if that is too long.  What a
transport delivers comes in buffers of its own, so a remote source asks for none, and retries ask for
what the attempts do.
-/

namespace PspBoot

variable {σ τ η α : Type}

/-- The room that a read asks for in a given state. -/
abbrev ReadRoom (σ : Type) := (offset len : Nat) → σ → Nat

/-- Reads that ask for no room of their own. -/
def ReadRoom.nothing : ReadRoom σ := fun _ _ _ => 0

/-- What a read may deliver. -/
def Fits (offset len : Nat) (data : Bytes) : Prop :=
  data.length ≤ len ∧ offset + data.length < UInt64.size

/-- The source tells sizes that are words.  Its reads are followed by their checked form and deliver
what they may, unless they ask for too much room, and then they stop. -/
structure Source.Bounded (source : Source σ) (read : CheckedRead σ) (room : ReadRoom σ)
    (V : σ → Prop) : Prop where
  isPresent : Ensures V (fun _ => True) source.isPresent fun _ _ => True
  isDirectory : Ensures V (fun _ => True) source.isDirectory fun _ _ => True
  failureCount : Ensures V (fun _ => True) source.failureCount fun _ _ => True
  size : Ensures V (fun _ => True) source.size fun n _ => n < UInt64.size
  room_le : ∀ offset len s, room offset len s ≤ len
  readAt : ∀ {offset}, offset < UInt64.size → ∀ len {s}, V s →
    room offset len s ≤ Checked.maxRoom →
      Followed V Untimed (read offset len) (source.readAt offset len) (Fits offset len) s
  stops : ∀ {offset}, offset < UInt64.size → ∀ {len s}, V s →
    Checked.maxRoom < room offset len s → ((read offset len).run s).1 = none

/-- A source that asks for no room never stops. -/
theorem Source.Bounded.of_follows {source : Source σ} {read : CheckedRead σ} {V : σ → Prop}
    (isPresent : Ensures V (fun _ => True) source.isPresent fun _ _ => True)
    (isDirectory : Ensures V (fun _ => True) source.isDirectory fun _ _ => True)
    (failureCount : Ensures V (fun _ => True) source.failureCount fun _ _ => True)
    (size : Ensures V (fun _ => True) source.size fun n _ => n < UInt64.size)
    (readAt : ∀ {offset}, offset < UInt64.size → ∀ len,
      Follows V (read offset len) (source.readAt offset len) (Fits offset len)) :
    source.Bounded read .nothing V where
  isPresent := isPresent
  isDirectory := isDirectory
  failureCount := failureCount
  size := size
  room_le _ _ _ := Nat.zero_le _
  readAt hoffset len s hs _ := readAt hoffset len s hs
  stops _ _ _ _ hroom := absurd hroom (Nat.not_lt_zero _)

theorem Source.Bounded.within {source : Source σ} {read : CheckedRead σ} {room : ReadRoom σ}
    {V : σ → Prop} (h : source.Bounded read room V) (focus : Focus τ σ) [focus.Lawful]
    {frame : τ → Prop} (hframe : ∀ w p, frame w → frame (focus.put w p)) :
    (source.within focus).Bounded (fun offset len => (read offset len).within focus)
      (fun offset len w => room offset len (focus.get w))
      (fun w => V (focus.get w) ∧ frame w) where
  isPresent := h.isPresent.lift focus hframe
  isDirectory := h.isDirectory.lift focus hframe
  failureCount := h.failureCount.lift focus hframe
  size := h.size.lift focus hframe
  room_le offset len w := h.room_le offset len (focus.get w)
  readAt hoffset len _ hw hroom :=
    Followed.within focus hframe (h.readAt hoffset len hw.1 hroom) hw.2
  stops hoffset _ _ hw hroom := h.stops hoffset hw.1 hroom

/-! ### Remote sources -/

/-- The lengths that a transport tells are words. -/
def Transport.TellsWords (transport : Option (Transport τ)) (url : String) : Prop :=
  ∀ t, transport = some t → ∀ host n, (t.lengthOf url host).1 = .ok (some n) → n < UInt64.size

namespace Remote

/-- The remembered length is a word. -/
def HoldsWords (r : Remote × τ) : Prop :=
  ∀ n, r.1.rememberedSize = some n → n < UInt64.size

variable {transport : Option (Transport τ)} {url : String}

/-- The length that is found is a word, and so is the one that is remembered. -/
theorem ensures_size? (h : Transport.TellsWords transport url) :
    Ensures HoldsWords (fun _ => True) (size? transport url)
      fun n? _ => ∀ n, n? = some n → n < UInt64.size := by
  have hunknown : ∀ n, (none : Option Nat) = some n → n < UInt64.size := by
    intro n hn
    cases hn
  intro s hs
  cases transport with
  | none =>
    apply Outcome.look
    cases hremembered : (Focus.first.get s).rememberedSize with
    | none => exact .same hs hunknown
    | some n => exact .same hs fun m hm => hs m (hremembered.trans hm)
  | some transport =>
    cases hremembered : s.1.rememberedSize with
    | some n =>
      rw [size?_of_known url hremembered]
      exact .same hs fun m hm => hs m (hremembered.trans hm)
    | none =>
      rcases hresult : transport.lengthOf url s.2 with ⟨error | n?, host⟩
      · rw [size?_of_failed hremembered hresult]
        exact ⟨hs, id, hunknown⟩
      cases n? with
      | none =>
        have hmissing : size? (some transport) url s = (none, s.1, host) := by
          simp [size?, hremembered, hresult]
        rw [hmissing]
        exact ⟨hs, id, hunknown⟩
      | some n =>
        have hword : ∀ m, some n = some m → m < UInt64.size := by
          rintro _ ⟨⟩
          exact h transport rfl s.2 n (congrArg Prod.fst hresult)
        rw [size?_of_told hremembered hresult]
        exact ⟨hword, id, hword⟩

theorem ensures_fail (error : TransportError) :
    Ensures (HoldsWords (τ := τ)) (fun _ => True) (fail error) fun _ _ => True :=
  fun _ hs => ⟨hs, id, trivial⟩

theorem follows_readAt (h : Transport.TellsWords transport url) {offset : Nat} (len : Nat)
    (hoffset : offset < UInt64.size) :
    Follows HoldsWords (readAtChecked transport url offset len) (readAt transport url offset len)
      (Fits offset len) := by
  have hnothing : Fits offset len [] := ⟨Nat.zero_le _, hoffset⟩
  intro s hs
  cases transport with
  | none => exact .pure hs hnothing
  | some transport =>
    refine .bind (.lift (ensures_size? h s hs)) fun n? t ht hn => ?_
    refine .ite (fun _ => .pure ht hnothing) fun hinside => ?_
    have hsize : n?.getD 0 < UInt64.size := by
      cases n? with
      | none => decide
      | some n => exact hn n rfl
    refine .sub (by omega) (.bind (Q := fun _ => True) (.lift ⟨ht, id, trivial⟩) ?_)
    intro answer u hu _
    cases answer with
    | ok data =>
      have hdata := List.length_take_le (min len (n?.getD 0 - offset)) data
      refine .pure hu ⟨?_, ?_⟩
      · omega
      · omega
    | error error =>
      exact .bind (.lift (ensures_fail error u hu)) fun _ v hv _ => .pure hv hnothing

theorem bounded (locator : Locator) (h : Transport.TellsWords transport locator.path) :
    (Source.remote locator transport).Bounded (readAtChecked transport locator.path) .nothing
      HoldsWords := by
  apply Source.Bounded.of_follows
  case isPresent =>
    exact fun s hs => (ensures_size? h s hs).bind fun _ _ ht _ => .same ht trivial
  case isDirectory => exact .pure fun _ _ => trivial
  case failureCount => exact fun s hs => .look (.same hs trivial)
  case size =>
    refine fun s hs => (ensures_size? h s hs).bind fun n? t ht hn => .same ht ?_
    cases n? with
    | none => decide
    | some n => exact hn n rfl
  case readAt => exact fun hoffset len => follows_readAt h len hoffset

end Remote

/-! ### Retries -/

namespace Retrying

variable {inner : Source σ} {read : CheckedRead σ} {innerRoom : ReadRoom σ} {V : σ → Prop}

/-- Nothing is read on where nothing is missing. -/
theorem readOn_of_done {size offset len : Nat} {received : Bytes}
    (h : len ≤ received.length ∨ size ≤ offset + received.length) (attempts : Nat) :
    readOn inner size offset len attempts received = pure received := by
  cases attempts with
  | zero => rfl
  | succ attempts => exact if_pos h

/-- The room that the inner source is asked for while a read is continued: the largest in any of the
attempts. -/
def roomOn (inner : Source σ) (innerRoom : ReadRoom σ) (size offset len : Nat) :
    (attempts : Nat) → (received : Bytes) → σ → Nat
  | 0, _, _ => 0
  | attempts + 1, received, s =>
      if len ≤ received.length ∨ size ≤ offset + received.length then
        0
      else
        let position := offset + received.length
        let missing := len - received.length
        let answer := inner.readAt position missing s
        max (innerRoom position missing s)
          (roomOn inner innerRoom size offset len attempts (received ++ answer.1) answer.2)

/-- The room that a read with retries asks for. -/
def room (policy : RetryPolicy) (inner : Source σ) (innerRoom : ReadRoom σ) : ReadRoom σ :=
  fun offset len s =>
    let told := size policy inner s
    roomOn inner innerRoom told.1 offset len policy.attempts [] told.2

theorem roomOn_of_done {size offset len : Nat} {received : Bytes}
    (h : len ≤ received.length ∨ size ≤ offset + received.length) (attempts : Nat) (s : σ) :
    roomOn inner innerRoom size offset len attempts received s = 0 := by
  cases attempts with
  | zero => rfl
  | succ attempts => exact if_pos h

theorem roomOn_le (h : inner.Bounded read innerRoom V) (size offset len attempts : Nat)
    (received : Bytes) (s : σ) : roomOn inner innerRoom size offset len attempts received s ≤ len := by
  induction attempts generalizing received s with
  | zero => exact Nat.zero_le _
  | succ attempts ih =>
    rw [roomOn]
    split
    · exact Nat.zero_le _
    · refine Nat.max_le.mpr ⟨Nat.le_trans (h.room_le _ _ _) (Nat.sub_le _ _), ih _ _⟩

theorem followed_readOn (h : inner.Bounded read innerRoom V) (size offset len attempts : Nat)
    {received : Bytes} (hreceived : offset + received.length < UInt64.size) {s : σ} (hs : V s)
    (hroom : roomOn inner innerRoom size offset len attempts received s ≤ Checked.maxRoom) :
    Followed V Untimed (readOnChecked read size offset len attempts received)
      (readOn inner size offset len attempts received)
      (fun data => offset + data.length < UInt64.size) s := by
  induction attempts generalizing received s with
  | zero => exact .pure hs hreceived
  | succ attempts ih =>
    refine .add hreceived (.ite (fun _ => .pure hs hreceived) fun hmore => ?_)
    rw [roomOn, if_neg hmore] at hroom
    obtain ⟨hfirst, hlater⟩ := Nat.max_le.mp hroom
    obtain ⟨hlen, -⟩ := not_or.mp hmore
    have hchunk := h.readAt hreceived (len - received.length) hs hfirst
    refine .sub (by omega) (hchunk.seq ?_)
    have ht := hchunk.outcome.valid
    have hfits := hchunk.outcome.post.2
    generalize inner.readAt (offset + received.length) (len - received.length) s = answer at *
    obtain ⟨chunk, t⟩ := answer
    have hnext : offset + (received ++ chunk).length < UInt64.size := by
      rw [List.length_append, ← Nat.add_assoc]
      exact hfits
    -- The checks behind a chunk are those of the next attempt, so the plain reading need not stop.
    dsimp only at ht hlater ⊢
    by_cases hdone : len ≤ (received ++ chunk).length
    · rw [if_pos hdone, readOn_of_done (.inl hdone)]
      exact .pure ht hnext
    rw [if_neg hdone]
    refine .add hnext ?_
    by_cases hend : size ≤ offset + (received ++ chunk).length
    · rw [if_pos hend, readOn_of_done (.inr hend)]
      exact .pure ht hnext
    rw [if_neg hend]
    exact ih hnext ht hlater

/-- Whichever attempt asks for too much room, the read stops there. -/
theorem stops_readOn (h : inner.Bounded read innerRoom V) (size offset len attempts : Nat)
    {received : Bytes} (hreceived : offset + received.length < UInt64.size) {s : σ} (hs : V s)
    (hroom : Checked.maxRoom < roomOn inner innerRoom size offset len attempts received s) :
    ((readOnChecked read size offset len attempts received).run s).1 = none := by
  induction attempts generalizing received s with
  | zero => exact absurd hroom (Nat.not_lt_zero _)
  | succ attempts ih =>
    by_cases hdone : len ≤ received.length ∨ size ≤ offset + received.length
    · rw [roomOn_of_done hdone] at hroom
      exact absurd hroom (Nat.not_lt_zero _)
    rw [roomOn, if_neg hdone] at hroom
    obtain ⟨hlen, -⟩ := not_or.mp hdone
    rw [readOnChecked, Checked.run_bind_of (Checked.run_add hreceived s), if_neg hdone,
      Checked.run_bind_of (Checked.run_sub (by omega) s)]
    by_cases hfirst : Checked.maxRoom < innerRoom (offset + received.length) (len - received.length) s
    · exact Checked.run_bind_of_none (h.stops hreceived hs hfirst)
    have hchunk := h.readAt hreceived (len - received.length) hs (Nat.not_lt.mp hfirst)
    have hlater := Nat.not_le.mp fun hle =>
      Nat.not_le.mpr hroom (Nat.max_le.mpr ⟨Nat.not_lt.mp hfirst, hle⟩)
    have ht := hchunk.outcome.valid
    have hfits := hchunk.outcome.post.2
    rw [Checked.run_bind_of (hchunk.run id)]
    generalize inner.readAt (offset + received.length) (len - received.length) s = answer at *
    obtain ⟨chunk, t⟩ := answer
    have hnext : offset + (received ++ chunk).length < UInt64.size := by
      rw [List.length_append, ← Nat.add_assoc]
      exact hfits
    dsimp only at ht hlater ⊢
    by_cases hdone : len ≤ (received ++ chunk).length ∨ size ≤ offset + (received ++ chunk).length
    · rw [roomOn_of_done hdone] at hlater
      exact absurd hlater (Nat.not_lt_zero _)
    obtain ⟨hmore, hinside⟩ := not_or.mp hdone
    rw [if_neg hmore, Checked.run_bind_of (Checked.run_add hnext t), if_neg hinside]
    exact ih hnext ht hlater

/-- What a repeated check finds is what the check may find. -/
theorem ensures_repeatCheck (h : inner.Bounded read innerRoom V) {check : StateM σ (Option α)}
    {good : α → Prop}
    (hcheck : Ensures V (fun _ => True) check fun found _ => ∀ a, found = some a → good a)
    (attempts : Nat) :
    Ensures V (fun _ => True) (repeatCheck inner check attempts)
      fun found _ => ∀ a, found = some a → good a := by
  have hfinding : Ensures V (fun _ => True) check fun found _ =>
      Finding good (True ∨ True) found := by
    refine hcheck.imp fun found _ _ hfound => ?_
    cases found with
    | none => exact .inl trivial
    | some a => exact hfound a rfl
  intro s hs
  refine (outcome_repeatCheck h.failureCount hfinding attempts s hs (.inr (.inl trivial))).imp ?_
  rintro _ t _ hfound a rfl
  exact hfound

theorem ensures_size_word (policy : RetryPolicy) (h : inner.Bounded read innerRoom V) :
    Ensures V (fun _ => True) (size policy inner) fun n _ => n < UInt64.size := by
  have hcheck : Ensures V (fun _ => True) (findSize inner)
      fun found _ => ∀ n, found = some n → n < UInt64.size := by
    intro s hs
    refine (h.size s hs).bind fun n t ht hn => .same ht ?_
    split
    · exact nofun
    · rintro _ ⟨⟩
      exact hn
  intro s hs
  refine (ensures_repeatCheck h hcheck policy.attempts s hs).bind fun found t ht hfound => ?_
  refine .same ht ?_
  cases found with
  | none => decide
  | some n => exact hfound n rfl

theorem ensures_isPresent (policy : RetryPolicy) (h : inner.Bounded read innerRoom V) :
    Ensures V (fun _ => True) (inner.retrying policy).isPresent fun _ _ => True := by
  have hcheck : Ensures V (fun _ => True) (findPresence inner)
      fun found _ => ∀ a, found = some a → True := by
    intro s hs
    exact (h.isPresent s hs).bind fun _ t ht _ => .same ht fun _ _ => trivial
  intro s hs
  exact (ensures_repeatCheck h hcheck policy.attempts s hs).bind fun _ t ht _ => .same ht trivial

/-- **Reads with retries stay within bounds.** -/
theorem bounded (policy : RetryPolicy) (h : inner.Bounded read innerRoom V) :
    (inner.retrying policy).Bounded (readAtChecked policy inner read)
      (room policy inner innerRoom) V where
  isPresent := ensures_isPresent policy h
  isDirectory := h.isDirectory
  failureCount := h.failureCount
  size := ensures_size_word policy h
  room_le offset len s := roomOn_le h _ offset len policy.attempts [] _
  readAt := by
    intro offset hoffset len s hs hroom
    have hsize := ensures_size_word policy h s hs
    have hstart : offset + ([] : Bytes).length < UInt64.size := hoffset
    refine (Followed.lift hsize).seq ?_
    refine .bind (followed_readOn h _ offset len policy.attempts hstart hsize.valid hroom) ?_
    intro received t ht hreceived
    refine .pure ht ⟨List.length_take_le _ _, ?_⟩
    have := List.length_take_le' len received
    omega
  stops := by
    intro offset hoffset len s hs hroom
    have hsize := ensures_size_word policy h s hs
    have hstart : offset + ([] : Bytes).length < UInt64.size := hoffset
    have htold : (Checked.lift (size policy inner)).run s =
        (some (size policy inner s).1, (size policy inner s).2) := rfl
    rw [readAtChecked, Checked.run_bind_of htold]
    exact Checked.run_bind_of_none (stops_readOn h _ offset len _ hstart hsize.valid hroom)

end Retrying

end PspBoot
