import PspBoot.Proofs.Source.Content
import PspBoot.Source.Retrying

/-!
# What retries achieve

A read that is continued `n` times reaches `n` times as far (`Retrying.shows`).  That alone says
little of failures, since a failed attempt delivers nothing and reaches nowhere.  So there is a
second account: `source.Recovers content patience V` says that a source either does what it
should or records a failure, and never fails `patience` times in a row.  With as many attempts no
failure gets through (`Recovers.retrying`).
-/

namespace PspBoot

variable {σ α : Type} {inner : Source σ} {content : Bytes} {reach : Nat} {V E : σ → Prop}
  {policy : RetryPolicy}

namespace Retrying

/-- What a check may come out with: something good, or nothing for a reason. -/
def Finding (good : α → Prop) (reason : Prop) : Option α → Prop
  | some a => good a
  | none => reason

/-- A repeated check finds what is there, or has an excuse for not finding it.  By induction on
the attempts that are left: with none left the last attempt must have had the excuse. -/
theorem outcome_repeatCheck {check : StateM σ (Option α)} {good : α → Prop} {absent : Prop}
    (hcount : Ensures V E inner.failureCount fun _ _ => True)
    (hcheck : Ensures V E check fun found s => Finding good (absent ∨ E s) found)
    (attempts : Nat) (s : σ) (hV : V s) (hleft : attempts ≠ 0 ∨ absent ∨ E s) :
    Outcome V E (fun found s => Finding good (absent ∨ E s) found) s
      (repeatCheck inner check attempts s) := by
  induction attempts generalizing s with
  | zero =>
      rcases hleft with hzero | hmissing
      · exact absurd rfl hzero
      · exact .same hV hmissing
  | succ attempts ih =>
      apply (hcount s hV).bind
      intro failures t hVt _
      apply (hcheck t hVt).bind
      intro found u hVu hfound
      cases found with
      | some a => exact .same hVu hfound
      | none =>
        apply ((hcount u hVu).carry hfound).bind
        intro failures' v hVv hmissing
        split
        · exact .same hVv hmissing
        · exact ih v hVv (.inr hmissing)

/-- Reading on behind the bytes that have been received.  By induction on the attempts that are
left: each of them adds `reach` bytes, or all that were missing. -/
theorem outcome_readOn (hread : ReadsFrom content reach V E inner.readAt) {size offset len : Nat}
    (attempts : Nat) {received : Bytes} (hreceived : received <+: Bytes.slice content offset len)
    (s : σ) (hV : V s) (hsize : size = content.length ∨ E s) :
    Outcome V E (fun data t =>
      Delivered (attempts * reach + received.length) (Bytes.slice content offset len) data (E t))
      s (readOn inner size offset len attempts received s) := by
  induction attempts generalizing received s with
  | zero =>
      refine .same hV ⟨hreceived, .inl ?_⟩
      rw [Nat.zero_mul, Nat.zero_add]
      apply Nat.min_le_left
  | succ attempts ih =>
      unfold readOn
      split
      · next hend =>
        refine .same hV ⟨hreceived, ?_⟩
        rcases hsize with rfl | hexcuse
        · left
          rw [Bytes.length_slice]
          omega
        · exact .inr hexcuse
      · next hmore =>
        have hchunk := hread (offset + received.length) (len - received.length) s hV
        apply (hchunk.and (hchunk.carry hsize)).bind
        intro chunk t hVt h
        have hnext := Bytes.append_prefix_slice hreceived h.1.isPrefix
        have hrest := ih hnext t hVt h.2
        constructor
        · exact hrest.valid
        · exact hrest.excused
        · refine ⟨hrest.post.isPrefix, ?_⟩
          rcases h.1.reaches with hgot | hexcuse
          · apply hrest.post.reaches.imp_left
            intro hall
            rw [Bytes.length_slice] at hgot hall ⊢
            rw [List.length_append] at hall
            rw [Nat.succ_mul]
            omega
          · exact .inr (hrest.excused hexcuse)

theorem ensures_findPresence (h : Ensures V E inner.isPresent fun yes s => yes = true ∨ E s) :
    Ensures V E (findPresence inner) fun found s =>
      Finding (fun _ => True) (False ∨ E s) found := by
  intro s hV
  refine (h s hV).bind fun yes t hVt hyes => .same hVt ?_
  cases yes with
  | true => trivial
  | false =>
    rcases hyes with hyes | hexcuse
    · cases hyes
    · exact .inr hexcuse

theorem ensures_findSize
    (h : Ensures V E inner.size fun n s => n = content.length ∨ n = 0 ∧ E s) :
    Ensures V E (findSize inner) fun found s =>
      Finding (· = content.length) (content.length = 0 ∨ E s) found := by
  intro s hV
  refine (h s hV).bind fun n t hVt hn => .same hVt ?_
  by_cases hzero : n = 0
  · rw [if_pos hzero]
    exact hn.imp (fun heq => by rw [← heq, hzero]) And.right
  · rw [if_neg hzero]
    rcases hn with heq | hexcuse
    · exact heq
    · exact absurd hexcuse.1 hzero

variable (h : inner.Shows content reach V E) (hattempts : policy.attempts ≠ 0)
include h hattempts

theorem ensures_size :
    Ensures V E (size policy inner) fun n s => n = content.length ∨ n = 0 ∧ E s := by
  intro s hV
  refine (outcome_repeatCheck h.failureCount (ensures_findSize h.size) policy.attempts s hV
    (.inl hattempts)).bind fun found t hVt hfound => .same hVt ?_
  cases found with
  | some n => exact .inl hfound
  | none => exact hfound.imp (fun hempty => hempty.symm) fun hexcuse => ⟨rfl, hexcuse⟩

theorem readsFrom : ReadsFrom content (policy.attempts * reach) V E (readAt policy inner) := by
  intro offset len s hV
  apply (ensures_size h hattempts s hV).bind
  intro size t hVt hsize
  refine (outcome_readOn h.readAt policy.attempts List.nil_prefix t hVt
    (hsize.imp_right And.right)).bind fun data u hVu hdata => .same hVu ?_
  have hlength := hdata.isPrefix.length_le
  rw [Bytes.length_slice] at hlength
  rw [List.take_of_length_le (by omega)]
  exact hdata

/-- **Retries multiply the reach of a source** by the number of attempts. -/
theorem shows : (inner.retrying policy).Shows content (policy.attempts * reach) V E where
  isPresent s hV := by
    refine (outcome_repeatCheck h.failureCount (ensures_findPresence h.isPresent) policy.attempts
      s hV (.inl hattempts)).bind fun found t hVt hfound => .same hVt ?_
    cases found with
    | some _ => exact .inl rfl
    | none => exact .inr (hfound.resolve_left id)
  isDirectory := h.isDirectory
  size := ensures_size h hattempts
  readAt := readsFrom h hattempts
  failureCount := h.failureCount
  hasEntry := h.hasEntry

end Retrying

/-- What is not there is not found by retries either. -/
theorem Retrying.isPresent_of_absent (hcount : Ensures V E inner.failureCount fun _ _ => True)
    (habsent : Ensures V E inner.isPresent fun yes _ => yes = false) (policy : RetryPolicy) :
    Ensures V E (inner.retrying policy).isPresent fun yes _ => yes = false := by
  have hnothing : Ensures V E (findPresence inner) fun found s =>
      Finding (fun _ => False) (True ∨ E s) found := by
    intro s hs
    refine (habsent s hs).bind fun yes t ht hno => .same ht ?_
    rw [hno]
    exact .inl trivial
  intro s hs
  refine (outcome_repeatCheck hcount hnothing policy.attempts s hs (.inr (.inl trivial))).bind
    fun found t ht hfound => .same ht ?_
  cases found with
  | some _ => exact hfound.elim
  | none => rfl

/-- **Retries reach no further than that.**  If no single read is longer than `cap`, then a read
that is continued is not longer than `cap` for every attempt. -/
theorem Retrying.length_readAt_le {cap : Nat}
    (hcap : ∀ offset len s, (inner.readAt offset len s).1.length ≤ cap) (policy : RetryPolicy)
    (offset len : Nat) (s : σ) :
    (readAt policy inner offset len s).1.length ≤ policy.attempts * cap := by
  have hon (size attempts : Nat) (received : Bytes) (s : σ) :
      (readOn inner size offset len attempts received s).1.length ≤
        received.length + attempts * cap := by
    induction attempts generalizing received s with
    | zero => exact Nat.le_add_right _ _
    | succ attempts ih =>
        unfold readOn
        split
        · apply Nat.le_add_right
        · have hchunk := hcap (offset + received.length) (len - received.length) s
          have hrest := ih (received ++ (inner.readAt (offset + received.length)
            (len - received.length) s).1) (inner.readAt (offset + received.length)
            (len - received.length) s).2
          rw [List.length_append] at hrest
          rw [run_bind, Nat.succ_mul]
          omega
  have hall := hon (size policy inner s).1 policy.attempts [] (size policy inner s).2
  rw [List.length_nil, Nat.zero_add] at hall
  simp only [readAt, run_bind, run_pure, List.length_take]
  exact Nat.le_trans (Nat.min_le_right _ _) hall

/-! ### Failures that do not last -/

/-- What an attempt comes to.  Either it succeeds and leads to a state in `G`, or it is recorded
as a failure and leads to one in `B`. -/
def Attempted (count : σ → Nat) (G B : σ → Prop) (good bad : α → Prop) (s : σ)
    (result : α × σ) : Prop :=
  (good result.1 ∧ G result.2 ∧ count result.2 = count s) ∨
    (bad result.1 ∧ B result.2 ∧ count result.2 ≠ count s)

/-- A source of a content that may fail, but never `patience` times in a row.  `V k` holds of its
state after `k` failures in a row, and `K k` does if the size is known besides; `count` reads off
the failures recorded in a state.  A read is only promised where the size is known: one that has
to ask for the size first may fail once more. -/
structure Source.Recovers (source : Source σ) (content : Bytes) (patience : Nat)
    (V K : Nat → σ → Prop) (count : σ → Nat) : Prop where
  bounded : ∀ k s, V k s → k < patience
  known : ∀ k s, K k s → V k s
  isPresent : ∀ k s, V k s →
    Attempted count (fun t => ∃ j, V j t) (V (k + 1)) (· = true) (· = false) s
      (source.isPresent s)
  isDirectory : Ensures (fun s => ∃ k, V k s) (fun _ => False) source.isDirectory
    fun yes _ => yes = false
  size : ∀ k s, V k s →
    Attempted count (fun t => ∃ j, K j t) (V (k + 1)) (· = content.length) (· = 0) s
      (source.size s)
  readAt : ∀ k s offset len, K k s →
    Attempted count (fun t => ∃ j, K j t) (K (k + 1)) (· = Bytes.slice content offset len)
      (· = []) s (source.readAt offset len s)
  failureCount : ∀ s, source.failureCount s = (count s, s)
  hasEntry : ∀ name, Ensures (fun s => ∃ k, V k s) (fun _ => False) (source.hasEntry name)
    fun yes _ => yes = false

/-- What an attempt on a part comes to, it comes to on the whole. -/
theorem Attempted.lift {τ : Type} {count : σ → Nat} {G B : σ → Prop} {good bad : α → Prop}
    {action : StateM σ α} (focus : Focus τ σ) [focus.Lawful] {frame : τ → Prop}
    (hframe : ∀ w p, frame w → frame (focus.put w p)) {w : τ} (hw : frame w)
    (h : Attempted count G B good bad (focus.get w) (action (focus.get w))) :
    Attempted (fun v => count (focus.get v)) (fun v => G (focus.get v) ∧ frame v)
      (fun v => B (focus.get v) ∧ frame v) good bad w (focus.lift action w) := by
  have hget : focus.get (focus.lift action w).2 = (action (focus.get w)).2 :=
    Focus.Lawful.get_put w _
  have hnext : frame (focus.lift action w).2 := hframe w _ hw
  unfold Attempted
  dsimp only
  rw [hget]
  rcases h with ⟨hgood, hG, hsame⟩ | ⟨hbad, hB, hother⟩
  · exact .inl ⟨hgood, ⟨hG, hnext⟩, hsame⟩
  · exact .inr ⟨hbad, ⟨hB, hnext⟩, hother⟩

theorem Attempted.imp {count : σ → Nat} {G G' B : σ → Prop} {good bad : α → Prop} {s : σ}
    {result : α × σ} (h : Attempted count G B good bad s result) (himp : ∀ t, G t → G' t) :
    Attempted count G' B good bad s result :=
  Or.imp_left (fun hgood => ⟨hgood.1, himp _ hgood.2.1, hgood.2.2⟩) h

namespace Source.Recovers

variable {τ : Type} {source : Source σ} {patience : Nat} {V K : Nat → σ → Prop} {count : σ → Nat}

/-- A source that recovers goes on doing so for the holder of a larger state. -/
theorem within (h : source.Recovers content patience V K count) (focus : Focus τ σ)
    [focus.Lawful] (frame : τ → Prop) (hframe : ∀ w p, frame w → frame (focus.put w p)) :
    (source.within focus).Recovers content patience (fun k w => V k (focus.get w) ∧ frame w)
      (fun k w => K k (focus.get w) ∧ frame w) (fun w => count (focus.get w)) where
  bounded k w hw := h.bounded k _ hw.1
  known k w hw := ⟨h.known k _ hw.1, hw.2⟩
  isPresent k w hw := ((h.isPresent k _ hw.1).lift focus hframe hw.2).imp
    fun _ ⟨⟨j, hnext⟩, hv⟩ => ⟨j, hnext, hv⟩
  isDirectory w hw := by
    obtain ⟨k, hV, hframed⟩ := hw
    have hinner := h.isDirectory.lift focus hframe w ⟨⟨k, hV⟩, hframed⟩
    obtain ⟨⟨j, hnext⟩, hv⟩ := hinner.valid
    exact ⟨⟨j, hnext, hv⟩, id, hinner.post⟩
  size k w hw := ((h.size k _ hw.1).lift focus hframe hw.2).imp
    fun _ ⟨⟨j, hnext⟩, hv⟩ => ⟨j, hnext, hv⟩
  readAt k w offset len hw := ((h.readAt k _ offset len hw.1).lift focus hframe hw.2).imp
    fun _ ⟨⟨j, hnext⟩, hv⟩ => ⟨j, hnext, hv⟩
  failureCount w := by
    simp [Source.within, h.failureCount, Focus.Lawful.put_get]
  hasEntry name w hw := by
    obtain ⟨k, hV, hframed⟩ := hw
    have hinner := (h.hasEntry name).lift focus hframe w ⟨⟨k, hV⟩, hframed⟩
    obtain ⟨⟨j, hnext⟩, hv⟩ := hinner.valid
    exact ⟨⟨j, hnext, hv⟩, id, hinner.post⟩

end Source.Recovers

namespace Retrying

variable {patience : Nat} {W K : Nat → σ → Prop} {count : σ → Nat}

theorem repeatCheck_succ (hcount : ∀ s, inner.failureCount s = (count s, s))
    (check : StateM σ (Option α)) (attempts : Nat) (s : σ) :
    repeatCheck inner check (attempts + 1) s =
      match (check s).1 with
      | some a => (some a, (check s).2)
      | none =>
          if count (check s).2 = count s then (none, (check s).2)
          else repeatCheck inner check attempts (check s).2 := by
  simp only [repeatCheck, run_bind, hcount]
  cases (check s).1 with
  | some a => rfl
  | none => simp [hcount]

/-- A check that is repeated as often as the source can fail in a row succeeds.  By induction on
the attempts that are left, with the failures behind it growing as they shrink. -/
theorem repeatCheck_recovers (hbounded : ∀ k s, W k s → k < patience)
    (hcount : ∀ s, inner.failureCount s = (count s, s)) {check : StateM σ (Option α)}
    {G : σ → Prop} {good : Option α → Prop}
    (hcheck : ∀ k s, W k s → Attempted count G (W (k + 1)) good (· = none) s (check s))
    (attempts : Nat) {k : Nat} {s : σ} (hW : W k s) (hleft : patience ≤ k + attempts) :
    good (repeatCheck inner check attempts s).1 ∧ G (repeatCheck inner check attempts s).2 := by
  induction attempts generalizing k s with
  | zero =>
      have := hbounded k s hW
      omega
  | succ attempts ih =>
      rw [repeatCheck_succ hcount]
      rcases hcheck k s hW with ⟨hgood, hnext, hsame⟩ | ⟨hbad, hnext, hother⟩
      · cases hfound : (check s).1 with
        | some a =>
            rw [hfound] at hgood
            exact ⟨hgood, hnext⟩
        | none =>
            rw [hfound] at hgood
            rw [if_pos hsame]
            exact ⟨hgood, hnext⟩
      · rw [hbad]
        dsimp only
        rw [if_neg hother]
        exact ih hnext (by omega)

/-- Nothing more is read once the window is complete. -/
theorem readOn_complete (content : Bytes) (offset len attempts : Nat) (s : σ) :
    readOn inner content.length offset len attempts (Bytes.slice content offset len) s =
      (Bytes.slice content offset len, s) := by
  cases attempts with
  | zero => rfl
  | succ attempts =>
      unfold readOn
      rw [if_pos]
      · rfl
      · rw [Bytes.length_slice]
        omega

theorem readOn_recovers (h : inner.Recovers content patience W K count) (offset len attempts : Nat)
    {k : Nat} {s : σ} (hK : K k s) (hleft : patience ≤ k + attempts) :
    (readOn inner content.length offset len attempts [] s).1 = Bytes.slice content offset len ∧
      ∃ j, K j (readOn inner content.length offset len attempts [] s).2 := by
  induction attempts generalizing k s with
  | zero =>
      have := h.bounded _ _ (h.known _ _ hK)
      omega
  | succ attempts ih =>
      unfold readOn
      split
      · next hend =>
        refine ⟨(Bytes.slice_eq_nil.mpr ?_).symm, k, hK⟩
        rw [List.length_nil] at hend
        omega
      · simp only [run_bind, List.nil_append, List.length_nil, Nat.add_zero, Nat.sub_zero]
        rcases h.readAt k s offset len hK with ⟨hgood, hnext, -⟩ | ⟨hbad, hnext, -⟩
        · rw [hgood, readOn_complete]
          exact ⟨rfl, hnext⟩
        · rw [hbad]
          exact ih hnext (by omega)

theorem findSize_attempted (h : inner.Recovers content patience W K count) (k : Nat) (s : σ)
    (hW : W k s) :
    Attempted count (fun t => ∃ j, K j t) (W (k + 1))
      (Finding (· = content.length) (content.length = 0)) (· = none) s (findSize inner s) := by
  simp only [findSize, run_bind, run_pure]
  rcases h.size k s hW with ⟨hgood, hnext⟩ | ⟨hbad, hnext⟩
  · refine .inl ⟨?_, hnext⟩
    split
    · next hzero => exact hgood.symm.trans hzero
    · exact hgood
  · rw [hbad]
    exact .inr ⟨rfl, hnext⟩

theorem findPresence_attempted (h : inner.Recovers content patience W K count) (k : Nat) (s : σ)
    (hW : W k s) :
    Attempted count (fun t => ∃ j, W j t) (W (k + 1)) (· = some ()) (· = none) s
      (findPresence inner s) := by
  simp only [findPresence, run_bind, run_pure]
  rcases h.isPresent k s hW with ⟨hgood, hnext⟩ | ⟨hbad, hnext⟩
  · rw [hgood]
    exact .inl ⟨rfl, hnext⟩
  · rw [hbad]
    exact .inr ⟨rfl, hnext⟩

end Retrying

namespace Source.Recovers

open Retrying

variable {patience : Nat} {W K : Nat → σ → Prop} {count : σ → Nat}
  (h : inner.Recovers content patience W K count) (hpatience : patience ≤ policy.attempts)
include h hpatience

theorem size_retrying {k : Nat} {s : σ} (hW : W k s) :
    (Retrying.size policy inner s).1 = content.length ∧
      ∃ j, K j (Retrying.size policy inner s).2 := by
  have hrun := repeatCheck_recovers h.bounded h.failureCount (findSize_attempted h)
    policy.attempts hW (by omega)
  refine ⟨?_, hrun.2⟩
  simp only [Retrying.size, run_bind, run_pure]
  cases hfound : (repeatCheck inner (findSize inner) policy.attempts s).1 with
  | some n =>
      rw [hfound] at hrun
      exact hrun.1
  | none =>
      rw [hfound] at hrun
      exact hrun.1.symm

/-- **Failures that do not last are hidden by retries.**  With as many attempts as the source has
patience, the source behind them shows its content as if nothing ever failed. -/
theorem retrying :
    (inner.retrying policy).Shows content content.length (fun s => ∃ k, W k s)
      (fun _ => False) where
  isPresent s hV := by
    obtain ⟨k, hW⟩ := hV
    have hrun := repeatCheck_recovers h.bounded h.failureCount (findPresence_attempted h)
      policy.attempts hW (by omega)
    refine ⟨hrun.2, id, .inl ?_⟩
    simp [Source.retrying, hrun.1]
  isDirectory := h.isDirectory
  size s hV := by
    obtain ⟨k, hW⟩ := hV
    obtain ⟨hsize, j, hnext⟩ := size_retrying h hpatience hW
    exact ⟨⟨j, h.known _ _ hnext⟩, id, .inl hsize⟩
  readAt offset len s hV := by
    obtain ⟨k, hW⟩ := hV
    obtain ⟨hsize, j, hnext⟩ := size_retrying h hpatience hW
    have hrun := readOn_recovers h offset len policy.attempts hnext (by omega)
    rw [← hsize] at hrun
    obtain ⟨i, hlast⟩ := hrun.2
    refine ⟨⟨i, h.known _ _ hlast⟩, id, ?_⟩
    simp only [Source.retrying, Retrying.readAt, run_bind, run_pure]
    rw [hrun.1, List.take_of_length_le]
    · exact .whole
    · rw [Bytes.length_slice]
      apply Nat.min_le_left
  failureCount s hV := by
    change Outcome _ _ _ s (inner.failureCount s)
    rw [h.failureCount]
    exact .same hV trivial
  hasEntry := h.hasEntry

end Source.Recovers

end PspBoot
