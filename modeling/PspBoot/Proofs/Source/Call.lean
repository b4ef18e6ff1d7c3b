import PspBoot.Chain.Basic
import PspBoot.Proofs.Source.Content

/-!
# Sequences of calls

A `Call` is a question that the holder of a source or a layer may ask, an `Answer` what comes of it.
A source that shows a content without excuse gives the right answer to every call of a sequence.
-/

namespace PspBoot

/-- A question to a source. -/
inductive Call where
  | isPresent
  | isDirectory
  | size
  | readAt (offset len : Nat)
deriving Repr, DecidableEq

/-- What a source may answer. -/
inductive Answer where
  | presence (yes : Bool)
  | length (n : Nat)
  | bytes (data : Bytes)
deriving Repr, DecidableEq

/-- The answer that is right for a content. -/
def Call.answer (content : Bytes) : Call → Answer
  | .isPresent => .presence true
  | .isDirectory => .presence false
  | .size => .length content.length
  | .readAt offset len => .bytes (Bytes.slice content offset len)

variable {σ : Type}

namespace Source

/-- Asks a source one question. -/
def ask (source : Source σ) : Call → StateM σ Answer
  | .isPresent => do pure (.presence (← source.isPresent))
  | .isDirectory => do pure (.presence (← source.isDirectory))
  | .size => do pure (.length (← source.size))
  | .readAt offset len => do pure (.bytes (← source.readAt offset len))

/-- Asks a source several questions, one after the other. -/
def askAll (source : Source σ) : List Call → StateM σ (List Answer)
  | [] => pure []
  | call :: calls => do
      let answer ← source.ask call
      let answers ← source.askAll calls
      pure (answer :: answers)

theorem run_askAll_cons (source : Source σ) (call : Call) (calls : List Call) (s : σ) :
    source.askAll (call :: calls) s =
      ((source.ask call s).1 :: (source.askAll calls (source.ask call s).2).1,
        (source.askAll calls (source.ask call s).2).2) := rfl

variable {source : Source σ} {V E : σ → Prop}

/-- What every call keeps, a sequence of calls keeps. -/
theorem valid_askAll (h : ∀ call, Ensures V E (source.ask call) fun _ _ => True)
    (calls : List Call) {s : σ} (hs : V s) : V (source.askAll calls s).2 := by
  induction calls generalizing s with
  | nil => exact hs
  | cons call calls ih => exact ih (h call s hs).valid

/-- If every answer depends on the call alone, so do the answers to a sequence of calls. -/
theorem answers_askAll {right : Call → Answer}
    (h : ∀ call, Ensures V E (source.ask call) fun answer _ => answer = right call)
    (calls : List Call) {s : σ} (hs : V s) : (source.askAll calls s).1 = calls.map right := by
  induction calls generalizing s with
  | nil => rfl
  | cons call calls ih =>
    have hfirst := h call s hs
    rw [run_askAll_cons, List.map_cons, hfirst.post, ih hfirst.valid]

namespace Shows

variable {content : Bytes} {reach : Nat}

/-- Whatever goes wrong, a call leaves the state as it has to be. -/
theorem ask (h : source.Shows content reach V E) (call : Call) :
    Ensures V E (source.ask call) fun _ _ => True := by
  intro s hs
  cases call with
  | isPresent => exact (h.isPresent s hs).bind fun _ _ ht _ => .same ht trivial
  | isDirectory => exact (h.isDirectory s hs).bind fun _ _ ht _ => .same ht trivial
  | size => exact (h.size s hs).bind fun _ _ ht _ => .same ht trivial
  | readAt offset len => exact (h.readAt offset len s hs).bind fun _ _ ht _ => .same ht trivial

/-- Without excuse every answer is right, if reads reach far enough. -/
theorem ask_eq (h : source.Shows content reach V fun _ => False) (hreach : content.length ≤ reach)
    (call : Call) :
    Ensures V (fun _ => False) (source.ask call) fun answer _ => answer = call.answer content := by
  intro s hs
  cases call with
  | isPresent =>
    refine (h.isPresent s hs).bind fun yes t ht hyes => .same ht ?_
    rw [hyes.resolve_right id]
    rfl
  | isDirectory =>
    refine (h.isDirectory s hs).bind fun yes t ht hyes => .same ht ?_
    rw [hyes]
    rfl
  | size =>
    refine (h.size s hs).bind fun n t ht hn => .same ht ?_
    rw [hn.resolve_right And.right]
    rfl
  | readAt offset len =>
    refine (h.readAt offset len s hs).bind fun data t ht hdata => .same ht ?_
    have hlength : (Bytes.slice content offset len).length ≤ reach := by
      rw [Bytes.length_slice]
      omega
    rw [(hdata.eq_or hlength).resolve_right id]
    rfl

/-- **Without excuse all answers are right**, whatever has been asked before. -/
theorem askAll_eq (h : source.Shows content reach V fun _ => False)
    (hreach : content.length ≤ reach) (calls : List Call) {s : σ} (hs : V s) :
    (source.askAll calls s).1 = calls.map (Call.answer content) :=
  answers_askAll (h.ask_eq hreach) calls hs

end Shows

end Source

namespace Layer

variable {η : Type}

/-- Asks a layer a question. -/
def ask (layer : Layer η) (call : Call) : StateM (World η) (Answer × Layer η) :=
  layer.use (layer.chain.source.ask call)

/-- The same, where the device may fail under the outermost disk cache. -/
def askAs (fates : Nat → Storage.BlockFate) (layer : Layer η) (call : Call) :
    StateM (World η) (Answer × Layer η) :=
  layer.use ((layer.chain.sourceAs fates).ask call)

/-- Asks a layer several questions, one after the other. -/
def askAll (layer : Layer η) (calls : List Call) : StateM (World η) (List Answer × Layer η) :=
  layer.use (layer.chain.source.askAll calls)

end Layer

end PspBoot
