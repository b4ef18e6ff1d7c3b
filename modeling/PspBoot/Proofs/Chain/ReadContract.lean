import PspBoot.Proofs.Chain.Network
import PspBoot.Proofs.Source.BoundedCaches
import PspBoot.Proofs.Source.Call

/-!
# What a network chain may answer

Whatever a transport does, a network chain keeps to a contract: once it has told a size it tells no
other, and a read delivers no more than was asked for and nothing from behind that size.  The
transport may cut answers short or draw them out, tell another length every time, and fail as it
likes; and between two calls the rest of the program may do with the storage what it wants.

The contract is proved along with the limits (`Chain.transcriptChecked`): the reads of all layers are
followed with every step checked.  No offset, length or size leaves the range of a word.  Two other
limits can be reached, and then a read delivers nothing but stops (`Chain.Overruns`): a cache asks for
a buffer as long as the answer it expects, which may be longer than any buffer, and a cache in memory
counts the uses of its blocks.
-/

namespace PspBoot

variable {σ τ η α : Type}

/-! ### Calls -/

/-- What a source of `total` bytes may answer. -/
def Call.Allows (total : Nat) : Call → Answer → Prop
  | .isPresent, answer => ∃ yes, answer = .presence yes
  | .isDirectory, answer => ∃ yes, answer = .presence yes
  | .size, answer => answer = .length total
  | .readAt offset len, answer =>
      ∃ data, answer = .bytes data ∧ data.length ≤ len ∧ data.length ≤ total - offset

/-- The number of bytes that a call asks for. -/
def Call.requested : Call → Nat
  | .readAt _ len => len
  | _ => 0

/-- The number of bytes in an answer. -/
def Answer.delivered : Answer → Nat
  | .bytes data => data.length
  | _ => 0

/-- What is allowed is no more than what was asked for. -/
theorem Call.delivered_le {total : Nat} {call : Call} {answer : Answer}
    (h : call.Allows total answer) : answer.delivered ≤ call.requested := by
  cases call with
  | isPresent | isDirectory =>
    obtain ⟨yes, rfl⟩ := h
    exact Nat.zero_le _
  | size =>
    rw [show answer = .length total from h]
    exact Nat.zero_le _
  | readAt offset len =>
    obtain ⟨data, rfl, hlen, -⟩ := h
    exact hlen

/-- `ask` with every step of a read checked. -/
def Source.askChecked (source : Source σ) (read : CheckedRead σ) : Call → Checked σ Answer
  | .readAt offset len => do pure (.bytes (← read offset len))
  | .isPresent => Checked.lift (source.ask .isPresent)
  | .isDirectory => Checked.lift (source.ask .isDirectory)
  | .size => Checked.lift (source.ask .size)

theorem Source.ask_within (source : Source σ) (focus : Focus τ σ) (call : Call) :
    (source.within focus).ask call = focus.lift (source.ask call) := by
  cases call with
  | isPresent | isDirectory | size | readAt => rfl

theorem Source.askChecked_within (source : Source σ) (read : CheckedRead σ) (focus : Focus τ σ)
    [focus.Lawful] (call : Call) :
    (source.within focus).askChecked (fun offset len => (read offset len).within focus) call =
      (source.askChecked read call).within focus := by
  cases call with
  | isPresent | isDirectory | size => rfl
  | readAt offset len =>
    rw [askChecked, askChecked, Checked.within_bind]
    congr 1
    funext data
    rw [Checked.within_pure]

namespace MemoryCache

variable {inner : Source σ} {read : CheckedRead σ} {innerRoom : ReadRoom σ} {V : σ → Prop}
  {policy : MemoryPolicy} {size? : Option Nat} {s : MemoryCache × σ}

/-- What comes of an action on a memory cache and what is behind it: the cache may tell nothing
that it could not tell before, `good` holds of the result for what it may tell, and its clock has
advanced by no more than the bytes that were delivered. -/
structure Abides (policy : MemoryPolicy) (V : σ → Prop) (size? : Option Nat)
    (good : Nat → α → Prop) (delivered : α → Nat) (s : MemoryCache × σ)
    (result : α × (MemoryCache × σ)) : Prop where
  after : ∃ size?', Keeping policy V size?' result.2 ∧
    ∀ total, MayTell size?' total → MayTell size? total ∧ good total result.1
  clock : result.2.1.clock ≤ s.1.clock + delivered result.1

/-- The room that a call asks for. -/
def roomFor (policy : MemoryPolicy) (inner : Source σ) (innerRoom : ReadRoom σ) :
    Call → MemoryCache × σ → Nat
  | .readAt offset len => room policy inner innerRoom offset len
  | _ => fun _ => 0

/-- A call that asks for too much room stops. -/
theorem stops_ask (h : inner.Bounded read innerRoom V) (hs : Keeping policy V size? s) {call : Call}
    (hroom : Checked.maxRoom < roomFor policy inner innerRoom call s) :
    let source := inner.memoryCached policy
    ((source.askChecked (readAtChecked policy inner read) call).run s).1 = none := by
  cases call with
  | isPresent | isDirectory | size => exact absurd hroom (Nat.not_lt_zero _)
  | readAt offset len => exact Checked.run_bind_of_none (hs.stops_readAt h hroom)

/-- **Any other call of a memory cache abides by the contract**, and is followed with every step
checked until the clock runs out. -/
theorem abides_ask (h : inner.Bounded read innerRoom V) (hs : Keeping policy V size? s)
    {call : Call} (hroom : roomFor policy inner innerRoom call s ≤ Checked.maxRoom) :
    let source := inner.memoryCached policy
    Followed (fun _ => True) Spent (source.askChecked (readAtChecked policy inner read) call)
        (source.ask call) (fun _ => True) s ∧
      Abides policy V size? call.Allows Answer.delivered s (source.ask call s) := by
  have hlearnt {total : Nat} (hsame : MayTell size? total) (n : Nat)
      (hn : MayTell (some total) n) : MayTell size? n := by
    rw [← hn total rfl]
    exact hsame
  -- Only reads are transcribed; the other calls do not use the clock.
  have hplain {action : StateM (MemoryCache × σ) Answer} (hclock : (action s).2.1.clock = s.1.clock) :
      Followed (fun _ => True) Spent (Checked.lift action) action (fun _ => True) s := by
    refine .steady (.lift ⟨trivial, id, trivial⟩) ?_
    rw [Spent, Spent, hclock]
  cases call with
  | isPresent =>
    have hinner := h.isPresent s.2 hs.1
    exact ⟨hplain rfl, ⟨size?, ⟨hinner.valid, hs.2⟩, fun _ htotal => ⟨htotal, _, rfl⟩⟩,
      Nat.le_add_right _ _⟩
  | isDirectory =>
    have hinner := h.isDirectory s.2 hs.1
    exact ⟨hplain rfl, ⟨size?, ⟨hinner.valid, hs.2⟩, fun _ htotal => ⟨htotal, _, rfl⟩⟩,
      Nat.le_add_right _ _⟩
  | size =>
    obtain ⟨total, t, hrun, hsame, ht, hclock⟩ := hs.run_size h
    have hask : (inner.memoryCached policy).ask .size s = (.length total, t) := by
      change (Answer.length (size inner s).1, (size inner s).2) = _
      rw [hrun]
    have hsteady : ((inner.memoryCached policy).ask .size s).2.1.clock = s.1.clock := by
      rw [hask]
      exact hclock
    refine ⟨hplain hsteady, ?_⟩
    rw [hask]
    refine ⟨⟨some total, ht, fun n hn => ⟨hlearnt hsame n hn, ?_⟩⟩, ?_⟩
    · rw [hn total rfl]
      rfl
    · exact Nat.le_trans (Nat.le_of_eq hclock) (Nat.le_add_right _ _)
  | readAt offset len =>
    obtain ⟨total, hsame, hread, hclock⟩ := hs.followed_readAt h hroom
    constructor
    · exact hread.forget.seq (.pure trivial trivial)
    · refine ⟨⟨some total, hread.outcome.valid, fun n hn => ⟨hlearnt hsame n hn, ?_⟩⟩, hclock⟩
      rw [← hn total rfl]
      exact ⟨_, rfl, hread.outcome.post⟩

end MemoryCache

/-! ### Chains -/

/-- What may happen while a chain is in use: it is asked something, or the rest of the program does
something to the world. -/
inductive ChainEvent (η : Type) where
  | asked (call : Call)
  | elsewhere (change : World η → World η)

namespace ChainEvent

/-- The calls among events, with their answers. -/
def transcript {m : Type → Type} [Monad m] (ask : Call → m Answer)
    (elsewhere : (World η → World η) → m Unit) : List (ChainEvent η) → m (List (Call × Answer))
  | [] => pure []
  | .asked call :: events => do
      let answer ← ask call
      let rest ← transcript ask elsewhere events
      pure ((call, answer) :: rest)
  | .elsewhere change :: events => do
      elsewhere change
      transcript ask elsewhere events

/-- The number of bytes that all calls ask for. -/
def requested : List (ChainEvent η) → Nat
  | [] => 0
  | .asked call :: events => call.requested + requested events
  | .elsewhere _ :: events => requested events

/-- The number of bytes in all answers. -/
def delivered : List (Call × Answer) → Nat
  | [] => 0
  | (_, answer) :: answers => answer.delivered + delivered answers

end ChainEvent

namespace Chain

/-- The room that a read asks for: the longest of the buffers that the layers of a chain make to hold an
answer.  A source of the host's own has its limits to itself. -/
def room : (chain : Chain η) → ReadRoom (chain.State × World η)
  | .supplied _ => .nothing
  | .localFile _ file => fun offset len _ =>
      if file.content.isSome ∧ offset < file.size then len else 0
  | .remote _ _ => .nothing
  | .retrying policy inner => Retrying.room policy inner.source inner.room
  | .memoryCached policy inner => fun offset len s =>
      MemoryCache.room policy inner.source inner.room offset len (onCache.get s)
  | .diskCached store inner => DiskCache.room store inner.room

/-- The reading of the clock of the outermost memory cache. -/
def clock? : (chain : Chain η) → chain.State → Option Nat
  | .memoryCached _ _, (cache, _) => some cache.clock
  | _, _ => none

/-- A call that reaches a limit: a read for which a buffer would be too long, or one behind which the
clock is no word. -/
def Overruns (chain : Chain η) : Call → chain.State × World η → Prop
  | .readAt offset len, s =>
      Checked.maxRoom < chain.room offset len s ∨
        ∃ clock ∈ chain.clock? (chain.source.readAt offset len s).2.1, UInt64.size ≤ clock
  | _, _ => False

/-- One of the calls among events reaches a limit. -/
def OverrunsAmong (chain : Chain η) : List (ChainEvent η) → chain.State × World η → Prop
  | [], _ => False
  | .asked call :: events, s =>
      chain.Overruns call s ∨ chain.OverrunsAmong events (chain.source.ask call s).2
  | .elsewhere change :: events, s => chain.OverrunsAmong events (s.1, change s.2)

/-- The answers of a chain to the calls among events. -/
def transcript (chain : Chain η) (events : List (ChainEvent η)) :
    StateM (chain.State × World η) (List (Call × Answer)) :=
  ChainEvent.transcript chain.source.ask (fun change => Focus.second.lift (modify change)) events

/-- The answers of a chain with every step of its reads checked. -/
def transcriptChecked (chain : Chain η) (events : List (ChainEvent η)) :
    Checked (chain.State × World η) (List (Call × Answer)) :=
  ChainEvent.transcript (chain.source.askChecked chain.readAtChecked)
    (fun change => Checked.lift (Focus.second.lift (modify change))) events

end Chain

/-- A change of the world that leaves the sizes of the open stores words. -/
def World.KeepsWords (change : World η → World η) : Prop :=
  ∀ world, world.storage.HoldsWords → (change world).storage.HoldsWords

/-- A chain whose reads stay within bounds, whatever the rest of the program does. -/
structure Chain.Bounded (chain : Chain η) (V : chain.State × World η → Prop) : Prop where
  source : chain.source.Bounded chain.readAtChecked chain.room V
  elsewhere : ∀ {change s}, World.KeepsWords change → V s → V (s.1, change s.2)

namespace Chain

variable {chain : Chain η} {V : chain.State × World η → Prop} {policy : MemoryPolicy}
  {size? : Option Nat}

open MemoryCache

/-- With every step checked, a call of a chain with a memory cache around it is one of the cache. -/
theorem run_askChecked (s : (MemoryCache × chain.State) × World η) (call : Call) :
    let cached := Chain.memoryCached policy chain
    let read := MemoryCache.readAtChecked policy chain.source chain.readAtChecked
    let result := ((chain.source.memoryCached policy).askChecked read call).run (onCache.get s)
    (cached.source.askChecked cached.readAtChecked call).run s =
      (result.1, onCache.put s result.2) := by
  intro cached read result
  have hchecked : cached.source.askChecked cached.readAtChecked call =
      ((chain.source.memoryCached policy).askChecked read call).within onCache :=
    Source.askChecked_within _ read onCache call
  rw [hchecked]
  rfl

/-- A call that reaches a limit stops. -/
theorem stops_ask (h : chain.Bounded V) {s : (MemoryCache × chain.State) × World η}
    (hs : Keeping policy V size? (onCache.get s)) (hclock : ¬Spent (onCache.get s)) {call : Call}
    (hover : (Chain.memoryCached policy chain).Overruns call s) :
    let cached := Chain.memoryCached policy chain
    ((cached.source.askChecked cached.readAtChecked call).run s).1 = none := by
  intro cached
  rw [run_askChecked]
  cases call with
  | isPresent | isDirectory | size => exact hover.elim
  | readAt offset len =>
    let room := roomFor policy chain.source chain.room (.readAt offset len) (onCache.get s)
    by_cases hroom : Checked.maxRoom < room
    · exact MemoryCache.stops_ask h.source hs hroom
    · obtain ⟨_, ⟨⟩, hspent⟩ := hover.resolve_left hroom
      have hfits : room ≤ Checked.maxRoom := Nat.not_lt.mp hroom
      exact (MemoryCache.abides_ask h.source hs hfits).1.stops hclock hspent

/-- **Any other call abides by the contract.** -/
theorem abides_ask (h : chain.Bounded V) {s : (MemoryCache × chain.State) × World η}
    (hs : Keeping policy V size? (onCache.get s)) (hclock : ¬Spent (onCache.get s)) {call : Call}
    (hover : ¬(Chain.memoryCached policy chain).Overruns call s) :
    let cached := Chain.memoryCached policy chain
    let result := cached.source.ask call s
    (cached.source.askChecked cached.readAtChecked call).run s = (some result.1, result.2) ∧
      ¬Spent (onCache.get result.2) ∧
      Abides policy V size? call.Allows Answer.delivered (onCache.get s)
        (result.1, onCache.get result.2) := by
  intro cached result
  have hroom : roomFor policy chain.source chain.room call (onCache.get s) ≤ Checked.maxRoom := by
    cases call with
    | isPresent | isDirectory | size => exact Nat.zero_le _
    | readAt offset len => exact Nat.not_lt.mp (not_or.mp hover).1
  obtain ⟨hfollowed, habides⟩ := MemoryCache.abides_ask h.source hs hroom
  have hresult : result = onCache.lift ((chain.source.memoryCached policy).ask call) s :=
    congrFun (Source.ask_within _ onCache call) s
  have hfresh : ¬Spent (onCache.get result.2) := by
    rw [hresult]
    cases call with
    | readAt offset len => exact fun hspent => (not_or.mp hover).2 ⟨_, rfl, hspent⟩
    | isPresent | isDirectory | size =>
      exact fun hspent => hclock (Nat.le_trans hspent habides.clock)
  rw [run_askChecked, hfollowed.run ?fresh, hresult]
  case fresh =>
    rw [hresult] at hfresh
    exact hfresh
  refine ⟨rfl, ?_, habides⟩
  rw [← hresult]
  exact hfresh

/-- Where blocks are not too long, a call that asks for little reaches no limit, and the clock advances
by no more than the bytes that it asks for. -/
theorem not_overruns (h : chain.Bounded V) {s : (MemoryCache × chain.State) × World η}
    (hs : Keeping policy V size? (onCache.get s)) {call : Call}
    (hblock : policy.effectiveBlockSize ≤ Checked.maxRoom)
    (hlen : call.requested ≤ Checked.maxRoom)
    (hclock : s.1.1.clock + call.requested < UInt64.size) :
    let cached := Chain.memoryCached policy chain
    let t := (cached.source.ask call s).2
    ¬cached.Overruns call s ∧ (∃ size?', Keeping policy V size?' (onCache.get t)) ∧
      t.1.1.clock ≤ s.1.1.clock + call.requested := by
  intro cached t
  have hroom : roomFor policy chain.source chain.room call (onCache.get s) ≤ Checked.maxRoom := by
    cases call with
    | isPresent | isDirectory | size => exact Nat.zero_le _
    | readAt offset len =>
      exact Nat.le_trans (MemoryCache.room_le h.source offset len _) (Nat.max_le.mpr ⟨hlen, hblock⟩)
  obtain ⟨⟨size?', ht, hgood⟩, hadvance⟩ := (MemoryCache.abides_ask h.source hs hroom).2
  have hsame : onCache.get t = ((chain.source.memoryCached policy).ask call (onCache.get s)).2 :=
    congrArg (fun result => onCache.get result.2) (congrFun (Source.ask_within _ onCache call) s)
  rw [← hsame] at ht hadvance
  have hafter : t.1.1.clock ≤ s.1.1.clock + call.requested := by
    have hallowed := (hgood (size?'.getD 0) fun n hn => by rw [hn]; rfl).2
    refine Nat.le_trans hadvance (Nat.add_le_add_left ?_ _)
    exact Call.delivered_le hallowed
  refine ⟨?_, ⟨size?', ht⟩, hafter⟩
  cases call with
  | isPresent | isDirectory | size => exact id
  | readAt offset len =>
    rintro (hlong | ⟨_, ⟨⟩, hspent⟩)
    · exact Nat.not_lt.mpr hroom hlong
    · exact Nat.not_lt.mpr hspent (Nat.lt_of_le_of_lt hafter hclock)

/-- So do all calls together, if they ask for fewer bytes than there are words. -/
theorem not_overrunsAmong (h : chain.Bounded V) {events : List (ChainEvent η)}
    (hothers : ∀ change, .elsewhere change ∈ events → World.KeepsWords change)
    (hblock : policy.effectiveBlockSize ≤ Checked.maxRoom)
    (hlen : ∀ call, .asked call ∈ events → call.requested ≤ Checked.maxRoom)
    {s : (MemoryCache × chain.State) × World η} (hs : Keeping policy V size? (onCache.get s))
    (hclock : s.1.1.clock + ChainEvent.requested events < UInt64.size) :
    ¬(Chain.memoryCached policy chain).OverrunsAmong events s := by
  induction events generalizing s size? with
  | nil => exact id
  | cons event events ih =>
    have hothers' := fun change hmem => hothers change (List.mem_cons_of_mem _ hmem)
    have hlen' := fun call hmem => hlen call (List.mem_cons_of_mem _ hmem)
    cases event with
    | asked call =>
      rw [ChainEvent.requested] at hclock
      obtain ⟨hfirst, ⟨size?', ht⟩, hadvance⟩ := not_overruns h hs hblock
        (hlen call (List.mem_cons_self ..)) (by omega)
      exact not_or.mpr ⟨hfirst, ih hothers' hlen' ht (by omega)⟩
    | elsewhere change =>
      have hchange := hothers change (List.mem_cons_self ..)
      have ht : Keeping policy V size? (onCache.get (s.1, change s.2)) :=
        ⟨h.elsewhere hchange hs.1, hs.2⟩
      exact ih hothers' hlen' ht hclock

/-- A first call and the calls behind it abide by the contract if the latter do for what the cache may
tell after the first. -/
theorem abides_cons {call : Call} {answer : Answer} {answers : List (Call × Answer)}
    {s t u : MemoryCache × (chain.State × World η)}
    (hfirst : Abides policy V size? call.Allows Answer.delivered s (answer, t))
    (hrest : ∀ size?', Keeping policy V size?' t →
      Abides policy V size?' (fun total answers => ∀ entry ∈ answers, entry.1.Allows total entry.2)
        ChainEvent.delivered t (answers, u)) :
    Abides policy V size? (fun total answers => ∀ entry ∈ answers, entry.1.Allows total entry.2)
      ChainEvent.delivered s ((call, answer) :: answers, u) := by
  obtain ⟨size?', ht, hgood⟩ := hfirst.after
  obtain ⟨⟨size?'', hu, hgood'⟩, hdelivered⟩ := hrest size?' ht
  refine ⟨⟨size?'', hu, fun total htotal => ?_⟩, ?_⟩
  · obtain ⟨hmay', hanswers⟩ := hgood' total htotal
    obtain ⟨hmay, hanswer⟩ := hgood total hmay'
    exact ⟨hmay, List.forall_mem_cons.mpr ⟨hanswer, hanswers⟩⟩
  · refine Nat.le_trans hdelivered (Nat.le_trans (Nat.add_le_add_right hfirst.clock _) ?_)
    rw [Nat.add_assoc]
    exact Nat.le_refl _

/-- **Whatever happens, a chain with a memory cache around it stops just if a call reaches a limit, and
abides by the contract otherwise.** -/
theorem abides_transcript (h : chain.Bounded V) (events : List (ChainEvent η))
    (hothers : ∀ change, .elsewhere change ∈ events → World.KeepsWords change)
    {s : (MemoryCache × chain.State) × World η} (hs : Keeping policy V size? (onCache.get s))
    (hclock : ¬Spent (onCache.get s)) :
    let cached := Chain.memoryCached policy chain
    let result := cached.transcript events s
    (cached.OverrunsAmong events s → ((cached.transcriptChecked events).run s).1 = none) ∧
      (¬cached.OverrunsAmong events s →
        (cached.transcriptChecked events).run s = (some result.1, result.2) ∧
        Abides policy V size?
          (fun total answers => ∀ entry ∈ answers, entry.1.Allows total entry.2)
          ChainEvent.delivered (onCache.get s) (result.1, onCache.get result.2)) := by
  -- The remembered size is general: it may be learnt in any step, and from then on it is kept.
  induction events generalizing s size? with
  | nil =>
    exact ⟨False.elim, fun _ => ⟨rfl, ⟨size?, hs, fun _ htotal => ⟨htotal, nofun⟩⟩,
      Nat.le_add_right _ _⟩⟩
  | cons event events ih =>
    have hrest := fun change hmem => hothers change (List.mem_cons_of_mem _ hmem)
    cases event with
    | asked call =>
      by_cases hover : (Chain.memoryCached policy chain).Overruns call s
      · exact ⟨fun _ => Checked.run_bind_of_none (stops_ask h hs hclock hover),
          fun hnone => absurd (.inl hover) hnone⟩
      obtain ⟨hfirst, hfresh, habides⟩ := abides_ask h hs hclock hover
      obtain ⟨size?', ht, -⟩ := habides.after
      refine ⟨fun hamong => ?_, fun hnone => ?_⟩
      · have hlater := (ih hrest ht hfresh).1 (hamong.resolve_left hover)
        exact (congrArg Prod.fst (Checked.run_bind_of hfirst)).trans
          (Checked.run_bind_of_none hlater)
      · have hwithin := (not_or.mp hnone).2
        have hnext := ((ih hrest ht hfresh).2 hwithin).1
        refine ⟨(Checked.run_bind_of hfirst).trans (Checked.run_bind_of hnext), ?_⟩
        exact abides_cons habides fun size?' ht => ((ih hrest ht hfresh).2 hwithin).2
    | elsewhere change =>
      have ht : Keeping policy V size? (onCache.get (s.1, change s.2)) :=
        ⟨h.elsewhere (hothers change (List.mem_cons_self ..)) hs.1, hs.2⟩
      obtain ⟨hstops, hruns⟩ := ih hrest ht hclock
      have hfirst : (Checked.lift (Focus.second.lift (modify change))).run s =
          (some (), (s.1, change s.2)) := rfl
      refine ⟨fun hamong => ?_, fun hnone => ?_⟩
      · exact (congrArg Prod.fst (Checked.run_bind_of hfirst)).trans (hstops hamong)
      · obtain ⟨hnext, ⟨hafter, hdelivered⟩⟩ := hruns hnone
        exact ⟨(Checked.run_bind_of hfirst).trans hnext, ⟨hafter, hdelivered⟩⟩

end Chain

/-! ### Network chains -/

namespace Chain

open DiskCache

/-- Requests stay within bounds. -/
theorem bounded_requests (policy : RetryPolicy) (locator : Locator)
    {transport : Option (Transport η)} (h : Transport.TellsWords transport locator.path) :
    (Chain.retrying policy (.remote locator transport)).Bounded
      (Beside Remote.HoldsWords Storage.HoldsWords) where
  source := by
    have hremote := (Remote.bounded locator h).within onRemote
      fun (w : Remote × World η) _ (hw : w.2.storage.HoldsWords) => hw
    exact Retrying.bounded policy hremote
  elsewhere hchange hs := ⟨hs.1, hchange _ hs.2⟩

/-- So do they with a disk cache. -/
theorem bounded_diskCached {chain : Chain η} {P : chain.State × η → Prop}
    (h : chain.Bounded (Beside P Storage.HoldsWords)) (key : Option FilePath.Key) :
    (Chain.diskCached key chain).Bounded (Beside P Storage.HoldsWords) where
  source := DiskCache.bounded key h.source
  elsewhere := h.elsewhere

end Chain

namespace Opener

variable {opener : Opener η} {locator : Locator} {world : World η}

/-- What is opened for a network locator is a chain within bounds behind an empty memory cache. -/
theorem bounded_openLayer (hnetwork : locator.isNetwork = true)
    (hwords : Transport.TellsWords opener.transport locator.path)
    (hstores : world.storage.HoldsWords) :
    ∃ chain state opened V,
      opener.openLayer locator world =
        (⟨.memoryCached opener.config.memory chain, (({} : MemoryCache), state)⟩, opened) ∧
      Chain.Bounded chain V ∧
      MemoryCache.Keeping opener.config.memory V none (({} : MemoryCache), (state, opened)) := by
  let requests : Chain η := .retrying opener.config.retry (.remote locator opener.transport)
  let first : Remote × World η := (Remote.initial locator opener.transport, world)
  have hrequests := Chain.bounded_requests opener.config.retry locator hwords
  have hfirst : DiskCache.Beside Remote.HoldsWords Storage.HoldsWords first := by
    refine ⟨fun n hn => ?_, hstores⟩
    change (Remote.initial locator opener.transport).rememberedSize = some n at hn
    cases htransport : opener.transport with
    | none | some _ =>
      rw [htransport] at hn
      cases hn
  rw [openLayer, if_pos hnetwork]
  unfold openRemote
  cases hdirectory : opener.config.effectiveCacheDirectory with
  | none => exact ⟨requests, first.1, first.2, _, rfl, hrequests, hfirst, .initial _⟩
  | some directory =>
    have hopened := DiskCache.ensures_openStore hrequests.source directory first hfirst
    exact ⟨.diskCached (DiskCache.openStore directory requests.source first).1 requests,
      (DiskCache.openStore directory requests.source first).2.1,
      (DiskCache.openStore directory requests.source first).2.2, _, rfl,
      Chain.bounded_diskCached hrequests _, hopened.valid, .initial _⟩

end Opener

/-- **No limit is reached by reads of ordinary lengths.** -/
theorem Opener.not_overrunsAmong_openLayer (opener : Opener η) {locator : Locator} {world : World η}
    {events : List (ChainEvent η)} (hnetwork : locator.isNetwork = true)
    (hwords : Transport.TellsWords opener.transport locator.path)
    (hstores : world.storage.HoldsWords)
    (hothers : ∀ change, .elsewhere change ∈ events → World.KeepsWords change)
    (hblock : opener.config.memory.effectiveBlockSize ≤ Checked.maxRoom)
    (hlen : ∀ call, .asked call ∈ events → call.requested ≤ Checked.maxRoom)
    (hsum : ChainEvent.requested events < UInt64.size) :
    let layer := (opener.openLayer locator world).1
    ¬layer.chain.OverrunsAmong events (layer.state, (opener.openLayer locator world).2) := by
  obtain ⟨chain, state, opened, V, hopened, hbounded, hstart⟩ :=
    bounded_openLayer hnetwork hwords hstores
  rw [hopened]
  refine Chain.not_overrunsAmong hbounded hothers hblock hlen hstart ?_
  rw [Nat.zero_add]
  exact hsum

/-- A layer keeps the contract over the given events. -/
structure Layer.KeepsContract (layer : Layer η) (world : World η) (events : List (ChainEvent η)) :
    Prop where
  /-- With every step checked the reads stop just if one of them reaches a limit. -/
  stops_iff :
    ((layer.chain.transcriptChecked events).run (layer.state, world)).1 = none ↔
      layer.chain.OverrunsAmong events (layer.state, world)
  /-- Otherwise they deliver the same as the plain ones. -/
  arithmetic : ¬layer.chain.OverrunsAmong events (layer.state, world) →
    let result := layer.chain.transcript events (layer.state, world)
    (layer.chain.transcriptChecked events).run (layer.state, world) = (some result.1, result.2)
  /-- With every use of a block that the clock of the memory cache counts, at least one byte was
  delivered. -/
  clock : ¬layer.chain.OverrunsAmong events (layer.state, world) →
    let result := layer.chain.transcript events (layer.state, world)
    ∃ clock, layer.chain.clock? result.2.1 = some clock ∧ clock ≤ ChainEvent.delivered result.1
  /-- All answers are right for the size that is told in the end. -/
  answers : ¬layer.chain.OverrunsAmong events (layer.state, world) →
    let result := layer.chain.transcript events (layer.state, world)
    let total := (layer.chain.source.size result.2).1
    total < UInt64.size ∧ ∀ entry ∈ result.1, entry.1.Allows total entry.2

/-- **What is opened for a network locator keeps the contract**, whatever the transport does, and
whatever happens between two calls. -/
theorem Opener.keepsContract_openLayer (opener : Opener η) {locator : Locator} {world : World η}
    {events : List (ChainEvent η)} (hnetwork : locator.isNetwork = true)
    (hwords : Transport.TellsWords opener.transport locator.path)
    (hstores : world.storage.HoldsWords)
    (hothers : ∀ change, .elsewhere change ∈ events → World.KeepsWords change) :
    (opener.openLayer locator world).1.KeepsContract (opener.openLayer locator world).2 events := by
  obtain ⟨chain, state, opened, V, hopened, hbounded, hstart⟩ :=
    bounded_openLayer hnetwork hwords hstores
  rw [hopened]
  have hclock : ¬MemoryCache.Spent (Chain.onCache.get ((({} : MemoryCache), state), opened)) :=
    Nat.not_le_of_lt (by decide : 0 < UInt64.size)
  obtain ⟨hstops, hruns⟩ := Chain.abides_transcript hbounded events hothers hstart hclock
  constructor
  case stops_iff =>
    refine ⟨fun hnone => Classical.byContradiction fun hwithin => ?_, hstops⟩
    have hrun := congrArg Prod.fst (hruns hwithin).1
    cases hrun.symm.trans hnone
  case arithmetic => exact fun hwithin => (hruns hwithin).1
  case clock =>
    intro hwithin
    exact ⟨_, rfl, Nat.le_trans (hruns hwithin).2.clock (Nat.le_of_eq (Nat.zero_add _))⟩
  case answers =>
    intro hwithin result last
    obtain ⟨size?, hafter, hgood⟩ := (hruns hwithin).2.after
    -- The size that the cache tells now is the only one that it could have told before.
    obtain ⟨total, t, hsize, hmay, ht, -⟩ := hafter.run_size hbounded.source
    have hlast : last = total := congrArg Prod.fst hsize
    rw [hlast]
    refine ⟨ht.2.isWord total rfl, ?_⟩
    exact (hgood total hmay).2

/-- A transport that tells a smaller length every time, and sends more than was asked for. -/
def Transport.drifting (length : Nat) : Transport Nat where
  lengthOf _ := fun told => (.ok (some (length - told)), told + 1)
  fetch _ _ len := fun told => (.ok (List.replicate (len + 1) 7), told)

theorem Transport.tellsWords_drifting {length : Nat} (h : length < UInt64.size) (url : String) :
    Transport.TellsWords (some (Transport.drifting length)) url := by
  rintro _ ⟨⟩ told _ ⟨⟩
  exact Nat.lt_of_le_of_lt (Nat.sub_le _ _) h

/-- The contract with blocks on disk: of ten bytes that are asked for three are left, and the size is the
one that was told first. -/
theorem Opener.keepsContract_drifting :
    let opener : Opener Nat :=
      { factories := {}, transport := some (.drifting 11)
        config := { Config.standard "cache" with memory := { blockSize := 8, capacity := 2 } } }
    let locator : Locator := .ofPath "http://host/game.bin"
    let world : World Nat := { host := 0 }
    let events : List (ChainEvent Nat) :=
      [.asked (.readAt 8 10), .elsewhere fun world => { world with host := 5 }, .asked .size]
    let layer := (opener.openLayer locator world).1
    let opened := (opener.openLayer locator world).2
    locator.isNetwork = true ∧ layer.KeepsContract opened events ∧
      ¬layer.chain.OverrunsAmong events (layer.state, opened) ∧
      ((layer.chain.transcriptChecked events).run (layer.state, opened)).1 =
        some [(.readAt 8 10, .bytes [7, 7, 7]), (.size, .length 11)] := by
  intro opener locator world events layer opened
  have hothers : ∀ change, .elsewhere change ∈ events → World.KeepsWords change := by
    intro change hmem world hstores
    have hchange : change = fun world => { world with host := 5 } := by
      simpa [events] using hmem
    rw [hchange]
    exact hstores
  have hcontract : layer.KeepsContract opened events :=
    opener.keepsContract_openLayer rfl (Transport.tellsWords_drifting (by decide) _) nofun hothers
  have hrun : ((layer.chain.transcriptChecked events).run (layer.state, opened)).1 =
      some [(.readAt 8 10, .bytes [7, 7, 7]), (.size, .length 11)] := by
    decide +kernel
  refine ⟨rfl, hcontract, fun hover => ?_, hrun⟩
  rw [hcontract.stops_iff.mpr hover] at hrun
  cases hrun

/-- **A limit is reached by a read of all there is**: with blocks on disk, a resource said to be as
long as can be said is not read at all, although three bytes of it would come. -/
theorem Opener.stops_wholeRead :
    let transport : Transport Unit :=
      { lengthOf := fun _ => pure (.ok (some (UInt64.size - 1)))
        fetch := fun _ offset _ => pure (.ok ([1, 2, 3].drop offset)) }
    let opener : Opener Unit :=
      { factories := {}, transport := some transport, config := .standard "cache" }
    let layer := (opener.openLayer (.ofPath "http://h/a") { host := () }).1
    let opened := (opener.openLayer (.ofPath "http://h/a") { host := () }).2
    let call : Call := .readAt 0 (UInt64.size - 1)
    (layer.chain.transcript [.asked call] (layer.state, opened)).1 = [(call, .bytes [1, 2, 3])] ∧
      ((layer.chain.transcriptChecked [.asked call]).run (layer.state, opened)).1 = none := by
  decide +kernel

end PspBoot
