import Mathlib.Data.Set.Insert
import Mathlib.Order.Bounds.Defs
import PspBoot.Proofs.Source.Call
import PspBoot.Proofs.Source.Retrying

/-!
# How often a check is repeated

A source may answer each time as it likes and record failures as it likes.  `tries` tells how the
attempts to ask it would come out, one after the other.  A check that is repeated makes as many of
them as the policy allows, or those up to the first that finds something or records no failure of
its own, whichever are fewer, and its result is that of the last one made (`asked_until_settled`).
-/

namespace PspBoot

variable {σ α β : Type}

namespace Source

/-- An action on a source, with a record of the question that was asked and of the answer. -/
def overhear (call : Call) (answer : α → Answer) (action : StateM σ α) :
    StateM (List (Call × Answer) × σ) α := do
  let a ← Focus.second.lift action
  Focus.first.lift (modify (· ++ [(call, answer a)]))
  pure a

/-- The source with a record of what it was asked and how it answered, the latest last. -/
def overheard (source : Source σ) : Source (List (Call × Answer) × σ) :=
  { source.within Focus.second with
    isPresent := overhear .isPresent .presence source.isPresent
    isDirectory := overhear .isDirectory .presence source.isDirectory
    size := overhear .size .length source.size
    readAt := fun offset len =>
      overhear (.readAt offset len) .bytes (source.readAt offset len) }

end Source

namespace Retrying

variable {inner : Source σ}

/-! ### Attempts -/

/-- What an attempt to ask comes to: an answer, and whether a failure was recorded meanwhile. -/
structure Try (α : Type) where
  answer : α
  failed : Bool
deriving Repr, DecidableEq

/-- Makes one attempt to ask. -/
def attempt (inner : Source σ) (ask : StateM σ α) : StateM σ (Try α) := do
  let failures ← inner.failureCount
  let answer ← ask
  let failures' ← inner.failureCount
  pure { answer, failed := failures' ≠ failures }

/-- The attempt behind `i` others that begin in a state. -/
def tries (inner : Source σ) (ask : StateM σ α) (s : σ) : (i : Nat) → Try α
  | 0 => (attempt inner ask s).1
  | i + 1 => tries inner ask (attempt inner ask s).2 i

/-- Nothing is left to be tried again: something was found, or the answer is a definite "no". -/
def Settles (good : α → Prop) (trial : Try α) : Prop :=
  good trial.answer ∨ trial.failed = false

/-! ### The number of attempts -/

/-- The number of the first attempt that settles the matter, or the number allowed if that is
smaller.  Attempts are counted from one. -/
def AttemptsMade (settled : Nat → Prop) (allowed made : Nat) : Prop :=
  IsLeast (insert allowed {k | ∃ i, k = i + 1 ∧ settled i}) made

namespace AttemptsMade

variable {settled : Nat → Prop} {allowed made : Nat}

theorem zero : AttemptsMade settled 0 0 :=
  ⟨Set.mem_insert 0 _, fun _ _ => Nat.zero_le _⟩

/-- The first attempt settles the matter. -/
theorem one (h : settled 0) : AttemptsMade settled (allowed + 1) 1 := by
  constructor
  · exact Set.mem_insert_of_mem _ ⟨0, rfl, h⟩
  · rintro k (rfl | ⟨i, rfl, -⟩)
    · exact Nat.le_add_left 1 allowed
    · exact Nat.le_add_left 1 i

/-- The first attempt does not settle the matter. -/
theorem succ (hfirst : ¬settled 0) (h : AttemptsMade (fun i => settled (i + 1)) allowed made) :
    AttemptsMade settled (allowed + 1) (made + 1) := by
  constructor
  · rcases h.1 with rfl | ⟨i, rfl, hi⟩
    · exact Set.mem_insert _ _
    · exact Set.mem_insert_of_mem _ ⟨i + 1, rfl, hi⟩
  · rintro k (rfl | ⟨i, rfl, hi⟩)
    · exact Nat.succ_le_succ (h.2 (Set.mem_insert _ _))
    · cases i with
      | zero => exact absurd hi hfirst
      | succ i => exact Nat.succ_le_succ (h.2 (Set.mem_insert_of_mem _ ⟨i, rfl, hi⟩))

theorem le (h : AttemptsMade settled allowed made) : made ≤ allowed :=
  h.2 (Set.mem_insert _ _)

theorem pos (h : AttemptsMade settled allowed made) (hallowed : allowed ≠ 0) : made ≠ 0 := by
  rcases h.1 with rfl | ⟨i, rfl, -⟩
  · exact hallowed
  · exact Nat.succ_ne_zero i

/-- What was tried again had not been settled. -/
theorem not_settled (h : AttemptsMade settled allowed made) {i : Nat} (hi : i + 1 < made) :
    ¬settled i := by
  intro hsettled
  have hmade := h.2 (Set.mem_insert_of_mem _ ⟨i, rfl, hsettled⟩)
  omega

/-- **A transient failure does no harm**: the last attempt finds something just if one of those that
are allowed does and each in front of it failed. -/
theorem good_iff {good : α → Prop} {trial : Nat → Try α}
    (h : AttemptsMade (fun i => Settles good (trial i)) allowed made) (hallowed : allowed ≠ 0) :
    good (trial (made - 1)).answer ↔
      ∃ i < allowed, good (trial i).answer ∧ ∀ j < i, (trial j).failed = true := by
  have hpos := h.pos hallowed
  have hle := h.le
  constructor
  · intro hgood
    refine ⟨made - 1, by omega, hgood, ?_⟩
    intro j hj
    have hopen := h.not_settled (show j + 1 < made by omega)
    cases hfailed : (trial j).failed with
    | true => rfl
    | false => exact absurd (.inr hfailed) hopen
  · rintro ⟨i, hi, hgood, hfailed⟩
    have hmade : made ≤ i + 1 := h.2 (Set.mem_insert_of_mem _ ⟨i, rfl, .inl hgood⟩)
    by_cases hlast : made = i + 1
    · rwa [hlast]
    · -- An attempt in front of the `i`-th was the last one, although it failed.
      rcases h.1 with rfl | ⟨m, rfl, hm⟩
      · omega
      · exact hm.resolve_right (by simp [hfailed m (by omega)])

end AttemptsMade

/-! ### Checks that are repeated -/

variable {ask : StateM σ α} {find : α → Option β}

/-- One attempt, and what it leads to. -/
theorem run_repeatCheck_succ (n : Nat) (s : σ) :
    repeatCheck inner (find <$> ask) (n + 1) s =
      match find (attempt inner ask s).1.answer with
      | some found => (some found, (ask (inner.failureCount s).2).2)
      | none =>
          if (attempt inner ask s).1.failed then
            repeatCheck inner (find <$> ask) n (attempt inner ask s).2
          else
            (none, (attempt inner ask s).2) := by
  have hanswer : (attempt inner ask s).1.answer = (ask (inner.failureCount s).2).1 := rfl
  simp only [repeatCheck, run_bind, run_map, hanswer]
  cases find (ask (inner.failureCount s).2).1 with
  | some found => rfl
  | none =>
    by_cases hcount : (inner.failureCount (ask (inner.failureCount s).2).2).1 =
        (inner.failureCount s).1
    · have hfailed : (attempt inner ask s).1.failed = false :=
        decide_eq_false (not_not_intro hcount)
      rw [hfailed]
      exact congrFun (if_pos hcount) _
    · have hfailed : (attempt inner ask s).1.failed = true := decide_eq_true hcount
      rw [hfailed]
      exact congrFun (if_neg hcount) _

/-- What was heard of the first attempts to ask. -/
def transcript (call : Call) (answer : α → Answer) (trial : Nat → Try α) (made : Nat) :
    List (Call × Answer) :=
  (List.range made).map fun i => (call, answer (trial i).answer)

/-- The attempts that a repeated check makes.  By induction on the attempts that are left: the first
one settles the matter, or the others follow. -/
theorem run_repeatCheck_overhear (call : Call) (answer : α → Answer) (n : Nat)
    (log : List (Call × Answer)) (s : σ) :
    ∃ made,
      AttemptsMade (fun i => Settles (fun a => (find a).isSome) (tries inner ask s i)) n made ∧
      repeatCheck inner.overheard (find <$> Source.overhear call answer ask) n (log, s) =
        ((repeatCheck inner (find <$> ask) n s).1,
          (log ++ transcript call answer (tries inner ask s) made,
            (repeatCheck inner (find <$> ask) n s).2)) ∧
      (n ≠ 0 →
        (repeatCheck inner (find <$> ask) n s).1 = find (tries inner ask s (made - 1)).answer) := by
  induction n generalizing log s with
  | zero => exact ⟨0, .zero, by simp [repeatCheck, transcript], fun h => absurd rfl h⟩
  | succ n ih =>
    have hattempt : attempt inner.overheard (Source.overhear call answer ask) (log, s) =
        ((attempt inner ask s).1, (log ++ [(call, answer (attempt inner ask s).1.answer)],
          (attempt inner ask s).2)) := rfl
    rw [run_repeatCheck_succ, run_repeatCheck_succ, hattempt]
    cases hfind : find (attempt inner ask s).1.answer with
    | some found =>
      refine ⟨1, .one (.inl (by simp [tries, hfind])), ?_, fun _ => hfind.symm⟩
      rfl
    | none =>
      cases hfailed : (attempt inner ask s).1.failed with
      | false => exact ⟨1, .one (.inr hfailed), rfl, fun _ => hfind.symm⟩
      | true =>
        obtain ⟨made, hmade, hrun, hresult⟩ :=
          ih (log ++ [(call, answer (attempt inner ask s).1.answer)]) (attempt inner ask s).2
        have hopen : ¬Settles (fun a => (find a).isSome) (tries inner ask s 0) := by
          simp [Settles, tries, hfind, hfailed]
        refine ⟨made + 1, hmade.succ hopen, ?_, ?_⟩
        · simp only [if_true, hrun, transcript, List.range_succ_eq_map, List.map_cons,
            List.map_map, List.append_assoc, List.singleton_append]
          rfl
        · intro _
          by_cases hn : n = 0
          · subst hn
            obtain rfl := Nat.le_zero.mp hmade.le
            exact hfind.symm
          · obtain ⟨k, rfl⟩ := Nat.exists_eq_succ_of_ne_zero (hmade.pos hn)
            exact hresult hn

/-- A check that was repeated, begun in the state `s`: how many attempts of those that were allowed
were made, what was heard of them, and what came of the last one. -/
structure Rechecked (inner : Source σ) (call : Call) (answer : α → Answer) (good : α → Prop)
    (ask : StateM σ α) (allowed : Nat) (log : List (Call × Answer)) (s : σ) (plain : α × σ)
    (overheard : α × (List (Call × Answer) × σ)) (made : Nat) : Prop where
  stops : AttemptsMade (fun i => Settles good (tries inner ask s i)) allowed made
  overheard_eq : overheard =
    (plain.1, (log ++ transcript call answer (tries inner ask s) made, plain.2))
  result_eq : plain.1 = (tries inner ask s (made - 1)).answer
  good_iff : good plain.1 ↔
    ∃ i < allowed, good (tries inner ask s i).answer ∧
      ∀ j < i, (tries inner ask s j).failed = true

theorem exists_rechecked (find : α → Option β) (finish : Option β → α) {good : α → Prop}
    (hgood : ∀ a, (find a).isSome ↔ good a) (hfinish : ∀ a, finish (find a) = a) (call : Call)
    (answer : α → Answer) {allowed : Nat} (hallowed : allowed ≠ 0) (log : List (Call × Answer))
    (s : σ) :
    ∃ made, Rechecked inner call answer good ask allowed log s
      ((finish <$> repeatCheck inner (find <$> ask) allowed) s)
      ((finish <$> repeatCheck inner.overheard (find <$> Source.overhear call answer ask) allowed)
        (log, s)) made := by
  obtain rfl : (fun a => ((find a).isSome : Prop)) = good := funext fun a => propext (hgood a)
  obtain ⟨made, hmade, hrun, hresult⟩ := run_repeatCheck_overhear call answer allowed log s
  have hlast : finish (repeatCheck inner (find <$> ask) allowed s).1 =
      (tries inner ask s (made - 1)).answer := by
    rw [hresult hallowed, hfinish]
  refine ⟨made, hmade, ?_, hlast, ?_⟩
  · rw [run_map, hrun]
    rfl
  · rw [run_map, hlast]
    exact hmade.good_iff hallowed

theorem exists_rechecked_isPresent (inner : Source σ) (policy : RetryPolicy)
    (hattempts : policy.attempts ≠ 0) (log : List (Call × Answer)) (s : σ) :
    ∃ made, Rechecked inner .isPresent .presence (· = true) inner.isPresent policy.attempts log s
      ((inner.retrying policy).isPresent s) ((inner.overheard.retrying policy).isPresent (log, s))
      made := by
  apply exists_rechecked (fun yes => if yes then some () else none) Option.isSome _ _ .isPresent
    .presence hattempts log s
  · intro yes
    simp
  · intro yes
    cases yes with
    | true | false => rfl

theorem exists_rechecked_size (inner : Source σ) (policy : RetryPolicy)
    (hattempts : policy.attempts ≠ 0) (log : List (Call × Answer)) (s : σ) :
    ∃ made, Rechecked inner .size .length (0 < ·) inner.size policy.attempts log s
      ((inner.retrying policy).size s) ((inner.overheard.retrying policy).size (log, s)) made := by
  apply exists_rechecked (fun n => if n = 0 then none else some n) (fun found => found.getD 0) _ _
    .size .length hattempts log s
  · intro n
    simp [Nat.pos_iff_ne_zero]
  · intro n
    cases n with
    | zero | succ => rfl

/-! ### Sources that follow a script -/

/-- The next entry of a script.  An entry tells the size to be reported, zero if nothing is there,
and the failures to be recorded on the way; at the end of the script nothing is there. -/
def readScript : StateM (FailureLog × List (Nat × List String)) Nat := fun (failures, script) =>
  match script with
  | [] => (0, (failures, []))
  | (n, texts) :: script => (n, (texts.foldl FailureLog.record failures, script))

/-- The source that answers as a script says. -/
def scripted : Source (FailureLog × List (Nat × List String)) where
  locator := .ofPath "/scripted"
  isPresent := (· ≠ 0) <$> readScript
  isDirectory := pure false
  size := readScript
  readAt _ _ := pure []
  lastFailure := do pure (← get).1.latest
  failureCount := do pure (← get).1.count

/-! ### The law -/

/-- **A check is repeated until the matter is settled, and no longer.**  Whatever the inner source
answers and whatever failures it records, presence is asked for up to the first attempt that says
"yes" or fails in no way, and the size up to the first that is positive or fails in no way. -/
theorem asked_until_settled (inner : Source σ) (policy : RetryPolicy)
    (hattempts : policy.attempts ≠ 0) (log : List (Call × Answer)) (s : σ) :
    (∃ made, Rechecked inner .isPresent .presence (· = true) inner.isPresent policy.attempts log s
      ((inner.retrying policy).isPresent s) ((inner.overheard.retrying policy).isPresent (log, s))
      made) ∧
    ∃ made, Rechecked inner .size .length (0 < ·) inner.size policy.attempts log s
      ((inner.retrying policy).size s) ((inner.overheard.retrying policy).size (log, s)) made := by
  constructor
  · exact exists_rechecked_isPresent inner policy hattempts log s
  · exact exists_rechecked_size inner policy hattempts log s

/-- Two attempts fail and the third says "yes", although it fails as well; the failure from before
plays no part.  Of the size, the second attempt settles that it is not known. -/
theorem asked_until_settled_scripted :
    let policy := RetryPolicy.standard
    let stale : FailureLog := { latest := some "stale", count := 1 }
    let lucky := (stale, [(0, ["timeout"]), (0, ["reset", "timeout"]), (7, ["late"]), (0, [])])
    let unlucky := (stale, [(0, ["timeout"]), (0, []), (7, [])])
    let present := (scripted.overheard.retrying policy).isPresent ([], lucky)
    let size := (scripted.overheard.retrying policy).size ([], unlucky)
    policy.attempts ≠ 0 ∧
      (∃ made, Rechecked scripted .isPresent .presence (· = true) scripted.isPresent 3 [] lucky
        ((scripted.retrying policy).isPresent lucky) present made) ∧
      (∃ made, Rechecked scripted .size .length (0 < ·) scripted.size 3 [] unlucky
        ((scripted.retrying policy).size unlucky) size made) ∧
      present.1 = true ∧
      present.2.1 = [(.isPresent, .presence false), (.isPresent, .presence false),
        (.isPresent, .presence true)] ∧
      size.1 = 0 ∧ size.2.1 = [(.size, .length 0), (.size, .length 0)] := by
  intro policy stale lucky unlucky present size
  have hattempts : policy.attempts ≠ 0 := by decide
  exact ⟨hattempts, (asked_until_settled scripted policy hattempts [] lucky).1,
    (asked_until_settled scripted policy hattempts [] unlucky).2, by decide, by decide, by decide,
    by decide⟩

end Retrying

end PspBoot
