import PspBoot.Proofs.Source.Call
import PspBoot.Proofs.Source.Faltering
import PspBoot.Proofs.Source.Records
import PspBoot.Proofs.Source.Retrying

/-!
# The attempts that retries make

A read that is continued is made up of reads of the inner source.  Whatever these deliver, each of
them starts where the bytes received so far end and asks for what is missing, and they come to an
end with the last byte or the last attempt (`continued_readAt`).
-/

namespace PspBoot

variable {σ : Type} {inner : Source σ} {content : Bytes} {V : σ → Prop}

/-- A source that falters, now and behind whatever else it is asked. -/
structure Source.KeepsFaltering (source : Source σ) (content : Bytes) (V : σ → Prop) : Prop
    extends source.Falters content V where
  isPresent : ∀ s, V s → V (source.isPresent s).2
  isDirectory : ∀ s, V s → V (source.isDirectory s).2
  failureCount : ∀ s, V s → V (source.failureCount s).2

theorem Source.keepsFaltering_halting (content : Bytes) :
    (Source.halting content).KeepsFaltering content fun _ => True :=
  { Source.falters_halting content with
    isPresent := fun _ _ => trivial
    isDirectory := fun _ _ => trivial
    failureCount := fun _ _ => trivial }

namespace Retrying

/-- With `got` bytes received, each read starts behind the bytes that are there, asks for those that
are missing, and is made because some are. -/
def Contiguous (content : Bytes) (offset len : Nat) : (got : Nat) → List SourceRead → Prop
  | _, [] => True
  | got, read :: reads =>
      got < min len (content.length - offset) ∧ read.offset = offset + got ∧
        read.len = len - got ∧ Contiguous content offset len (got + read.data.length) reads

/-- Where nothing is to be had, nothing is read. -/
theorem Contiguous.eq_nil {offset len got : Nat} {reads : List SourceRead}
    (h : Contiguous content offset len got reads) (hnone : content.length ≤ offset ∨ len = 0) :
    reads = [] := by
  cases reads with
  | nil => rfl
  | cons read reads =>
    have hmissing := h.1
    omega

/-- With some attempts left, the bytes in `received` are continued to `data` by reads of a
content. -/
structure Continued (content : Bytes) (offset len attempts : Nat) (received data : Bytes)
    (reads : List SourceRead) : Prop where
  contiguous : Contiguous content offset len received.length reads
  budget : reads.length ≤ attempts
  data_eq : data = received ++ reads.flatMap (·.data)
  slice_eq : data = Bytes.slice content offset data.length
  length_le : data.length ≤ min len (content.length - offset)
  exhausted : data.length < min len (content.length - offset) → reads.length = attempts

namespace Continued

variable {offset len attempts : Nat} {received data chunk : Bytes} {reads : List SourceRead}

/-- Bytes that are left as they are. -/
theorem stop (hreceived : received <+: Bytes.slice content offset len)
    (hend : received.length < min len (content.length - offset) → attempts = 0) :
    Continued content offset len attempts received received [] := by
  have hlength := hreceived.length_le
  rw [Bytes.length_slice] at hlength
  constructor
  · trivial
  · exact Nat.zero_le attempts
  · simp
  · rw [List.prefix_iff_eq_take, Bytes.take_slice] at hreceived
    rwa [Nat.min_eq_left (by omega)] at hreceived
  · exact hlength
  · intro hmissing
    exact (hend hmissing).symm

/-- One more read in front. -/
theorem cons (hmissing : received.length < min len (content.length - offset))
    (h : Continued content offset len attempts (received ++ chunk) data reads) :
    Continued content offset len (attempts + 1) received data
      (⟨offset + received.length, len - received.length, chunk⟩ :: reads) := by
  have hrest := h.contiguous
  rw [List.length_append] at hrest
  constructor
  · exact ⟨hmissing, rfl, rfl, hrest⟩
  · exact Nat.succ_le_succ h.budget
  · simpa using h.data_eq
  · exact h.slice_eq
  · exact h.length_le
  · intro hshort
    exact congrArg Nat.succ (h.exhausted hshort)

end Continued

/-- Reading on behind the bytes that have been received.  By induction on the attempts that are
left; if there are any, the size must be right. -/
theorem records_readOn (h : inner.KeepsFaltering content V) {size offset len : Nat} (attempts : Nat)
    (hsize : attempts = 0 ∨ size = content.length) {received : Bytes}
    (hreceived : received <+: Bytes.slice content offset len) :
    Records V (readOn inner.recorded size offset len attempts received)
      (readOn inner size offset len attempts received)
      (Continued content offset len attempts received) := by
  induction attempts generalizing received with
  | zero => exact .pure (.stop hreceived fun _ => rfl)
  | succ attempts ih =>
    obtain rfl := hsize.resolve_left (Nat.succ_ne_zero attempts)
    apply Records.ite
    · intro hend
      apply Records.pure
      apply Continued.stop hreceived
      omega
    · intro hmore
      have hmissing : received.length < min len (content.length - offset) := by omega
      have hread : Records V
          (inner.recorded.readAt (offset + received.length) (len - received.length))
          (inner.readAt (offset + received.length) (len - received.length))
          fun chunk reads =>
            reads = [⟨offset + received.length, len - received.length, chunk⟩] ∧
              chunk <+: Bytes.slice content (offset + received.length) (len - received.length) := by
        apply Records.readAt
        intro s hs
        have hchunk := h.readAt (offset + received.length) (len - received.length) s hs
        exact ⟨hchunk.valid, rfl, hchunk.post⟩
      apply hread.bind
      rintro chunk _ ⟨rfl, hchunk⟩
      have hnext := Bytes.append_prefix_slice hreceived hchunk
      exact (ih (.inr rfl) hnext).imp fun data reads hrest => hrest.cons hmissing

/-- To check a part again and again is to check the whole again and again, if the failures are those
of the part. -/
theorem repeatCheck_lift {α τ : Type} (focus : Focus τ σ) [focus.Lawful] {whole : Source τ}
    (hcount : whole.failureCount = focus.lift inner.failureCount) (check : StateM σ (Option α))
    (attempts : Nat) :
    repeatCheck whole (focus.lift check) attempts =
      focus.lift (repeatCheck inner check attempts) := by
  induction attempts with
  | zero => exact (focus.lift_pure none).symm
  | succ attempts ih =>
    simp only [repeatCheck, hcount, ih, Focus.lift_bind]
    congr 1
    funext failures
    congr 1
    funext found
    cases found with
    | some a => exact (focus.lift_pure (some a)).symm
    | none =>
      simp only [Focus.lift_bind]
      congr 1
      funext failures'
      split
      · exact (focus.lift_pure none).symm
      · rfl

/-- To ask for the size is not to read. -/
theorem size_recorded (policy : RetryPolicy) (inner : Source σ) :
    size policy inner.recorded = Focus.second.lift (size policy inner) := by
  have hcheck : repeatCheck inner.recorded (findSize inner.recorded) policy.attempts =
      Focus.second.lift (repeatCheck inner (findSize inner) policy.attempts) :=
    repeatCheck_lift Focus.second rfl (findSize inner) policy.attempts
  simp only [size, hcheck, Focus.lift_bind, Focus.lift_pure]

section Requests

variable (h : inner.KeepsFaltering content V)
include h

theorem ensures_failureCount {excuse : Prop} :
    Ensures V (fun _ => excuse) inner.failureCount fun _ _ => True :=
  fun s hs => ⟨h.failureCount s hs, id, trivial⟩

/-- The size is known if there are attempts at all. -/
theorem size_of_attempts (policy : RetryPolicy) {s : σ} (hs : V s) :
    V (size policy inner s).2 ∧
      (policy.attempts = 0 ∨ (size policy inner s).1 = content.length) := by
  by_cases hattempts : policy.attempts = 0
  · simp [size, hattempts, repeatCheck, hs]
  · have hsize : Ensures V (fun _ => False) inner.size fun n t =>
        n = content.length ∨ n = 0 ∧ False :=
      fun t ht => ⟨(h.size t ht).2, id, .inl (h.size t ht).1⟩
    have hfound := outcome_repeatCheck (ensures_failureCount h) (ensures_findSize hsize)
      policy.attempts s hs (.inl hattempts)
    refine ⟨hfound.valid, .inr ?_⟩
    have hpost := hfound.post
    change (repeatCheck inner (findSize inner) policy.attempts s).1.getD 0 = content.length
    cases hresult : (repeatCheck inner (findSize inner) policy.attempts s).1 with
    | some n =>
      rw [hresult] at hpost
      exact hpost
    | none =>
      rw [hresult] at hpost
      exact (hpost.resolve_right id).symm

theorem records_readAt (policy : RetryPolicy) (offset len : Nat) :
    Records V (readAt policy inner.recorded offset len) (readAt policy inner offset len)
      (Continued content offset len policy.attempts []) := by
  have hrecorded : Records V (size policy inner.recorded) (size policy inner) fun n reads =>
      (policy.attempts = 0 ∨ n = content.length) ∧ reads = [] := by
    rw [size_recorded]
    apply Records.silent
    intro s hs
    obtain ⟨hkept, hsize⟩ := size_of_attempts h policy hs
    exact ⟨hkept, hsize, rfl⟩
  apply hrecorded.bind
  rintro size _ ⟨hsize, rfl⟩
  apply (records_readOn h policy.attempts hsize List.nil_prefix).bind
  intro data reads hdata
  apply Records.pure
  have hlength := hdata.length_le
  rw [List.take_of_length_le (by omega)]
  simpa using hdata

/-- No question takes a source that falters out of the states it may be in. -/
theorem keeps_ask (policy : RetryPolicy) (call : Call) :
    Ensures V (fun _ => True) ((inner.retrying policy).ask call) fun _ _ => True := by
  intro s hs
  refine ⟨?_, id, trivial⟩
  cases call with
  | isPresent =>
    have hpresent : Ensures V (fun _ => True) (findPresence inner) fun found _ =>
        Finding (fun _ => True) (True ∨ True) found := by
      intro t ht
      refine ⟨h.isPresent t ht, id, ?_⟩
      cases (findPresence inner t).1 with
      | some found => trivial
      | none => exact .inl trivial
    exact (outcome_repeatCheck (ensures_failureCount h) hpresent policy.attempts s hs
      (.inr (.inl trivial))).valid
  | isDirectory => exact h.isDirectory s hs
  | size => exact (size_of_attempts h policy hs).1
  | readAt offset len =>
    obtain ⟨-, -, hkept, -⟩ := records_readAt h policy offset len [] s hs
    exact hkept

/-- **A read that is continued is put together without a gap and within its budget**, whatever has
been asked before: the reads that it makes of the inner source are those of which `Continued`
speaks, and there are none where nothing is to be had. -/
theorem continued_readAt (policy : RetryPolicy) (calls : List Call) (offset len : Nat) {s : σ}
    (hs : V s) (log : List SourceRead) :
    let before := ((inner.retrying policy).askAll calls s).2
    let plain := (inner.retrying policy).readAt offset len before
    ∃ reads,
      (inner.recorded.retrying policy).readAt offset len (log, before) =
          (plain.1, (log ++ reads, plain.2)) ∧
        Continued content offset len policy.attempts [] plain.1 reads ∧
        (content.length ≤ offset ∨ len = 0 → reads = []) := by
  intro before plain
  have hbefore : V before := Source.valid_askAll (keeps_ask h policy) calls hs
  obtain ⟨reads, hrun, -, hreads⟩ := records_readAt h policy offset len log before hbefore
  exact ⟨reads, hrun, hreads, hreads.contiguous.eq_nil⟩

end Requests

/-- The first attempt gets three bytes of seven, the second one the rest; the failure of the read
before, which took two attempts, is not counted. -/
theorem continued_readAt_halting :
    let content : Bytes := [1, 2, 3, 4, 5, 6, 7, 8, 9, 10]
    let source := Source.halting content
    let policy : RetryPolicy := { RetryPolicy.standard with attempts := 2 }
    let before := ((source.retrying policy).askAll [.size, .readAt 0 1] 0).2
    let run := (source.recorded.retrying policy).readAt 2 7 ([], before)
    let reads : List SourceRead := [⟨2, 7, [3, 4, 5]⟩, ⟨5, 4, [6, 7, 8, 9]⟩]
    source.KeepsFaltering content (fun _ => True) ∧ before = 2 ∧
      run.1 = [3, 4, 5, 6, 7, 8, 9] ∧ run.2.1 = reads ∧
      Continued content 2 7 policy.attempts [] run.1 reads := by
  intro content source policy before run reads
  have hreads : run.2.1 = reads := by decide
  obtain ⟨found, hrun, hfound, -⟩ := continued_readAt (Source.keepsFaltering_halting content) policy
    [.size, .readAt 0 1] 2 7 trivial []
  have hdata : run.1 = _ := congrArg Prod.fst hrun
  have hsame : run.2.1 = found := congrArg (fun run => run.2.1) hrun
  obtain rfl : found = reads := hsame.symm.trans hreads
  rw [← hdata] at hfound
  exact ⟨Source.keepsFaltering_halting content, by decide, by decide, hreads, hfound⟩

end Retrying

end PspBoot
