import PspBoot.Proofs.Session.Calls

/-!
# The exchange law

An exchange of the disc ends in one of six ways (`Exchanged`).  Without a drive nothing is opened.
A replacement that is not there is closed again, and the old disc stays.  In all other cases the
replacement, or the container of its game directory, is put into the drive and stays there:
whether it is a disc, and whether memory can be mapped for it, only decides the result.
-/

namespace PspBoot

namespace Session

variable {η : Type}

/-- Whether there is a drive. -/
def hasDrive (session : Session η) : StateM (World η) Bool :=
  World.hostFocus.lift (session.host.files.hasMount discDrive)

/-- Opens a replacement and looks whether it is there. -/
def findReplacement (session : Session η) (locator : Locator) :
    StateM (World η) (Bool × Layer η) := do
  let layer ← session.opener.openLayer locator
  layer.isPresent

/-- Closes the disc in the drive, if there is one. -/
def closeDisc (session : Session η) : StateM (World η) Unit :=
  match session.disc with
  | some old => old.close
  | none => pure ()

/-- What becomes of a disc that was put into the drive: the result of the exchange, the calls that
are made for it, and the disc and the world afterwards. -/
inductive Mapped (mapper : MemoryMapper η) (disc : Chain η) (before : disc.State × World η) :
    Except ExchangeError Unit → List (HostCall η) → disc.State × World η → Prop where
  | unexamined {cause : IdentifyError} {after : disc.State × World η}
      (hidentify : identify disc.source before = (.error cause, after)) :
      Mapped mapper disc before (.error (.notADisc "identification error" cause.message)) [] after
  | notADisc {kind : ImageKind} {after : disc.State × World η}
      (hidentify : identify disc.source before = (.ok kind, after)) (hkind : kind.isDisc = false) :
      Mapped mapper disc before (.error (.notADisc kind.name (remark kind))) [] after
  | asked {kind : ImageKind} {found after : disc.State × World η} {answer : Bool}
      (hidentify : identify disc.source before = (.ok kind, found)) (hkind : kind.isDisc = true)
      (hremap : mapper.remap disc found = (answer, after)) :
      Mapped mapper disc before (if answer then .ok () else .error .notMapped)
        [.remap { chain := disc, state := found.1 } answer] after

/-- How an exchange of the disc may end. -/
inductive Exchanged (locator : Locator) (before : Session η) (world : World η) :
    Ended η (Except ExchangeError Unit) → Prop where
  | noDrive {w : World η} (hdrive : before.hasDrive world = (false, w)) :
      Exchanged locator before world
        { result := .error .noDrive
          calls := [.hasMount discDrive false]
          session := before
          world := w }
  | notFound {w w' : World η} {layer : Layer η} (hdrive : before.hasDrive world = (true, w))
      (hfind : before.findReplacement locator w = ((false, layer), w')) :
      Exchanged locator before world
        { result := .error (.notFound locator.path)
          calls := [.hasMount discDrive true]
          session := before
          world := (layer.close w').2 }
  | inserted {w w' w'' : World η} {layer disc : Layer η} {result : Except ExchangeError Unit}
      {calls : List (HostCall η)} {after : disc.chain.State × World η}
      (hdrive : before.hasDrive world = (true, w))
      (hfind : before.findReplacement locator w = ((true, layer), w'))
      (henter : before.opener.enterGameDirectory layer w' = (disc, w''))
      (hmapped : Mapped before.host.mapper disc.chain (disc.state, (before.closeDisc w'').2)
        result calls after) :
      Exchanged locator before world
        { result := result
          calls := .hasMount discDrive true :: calls
          session := { before with disc := some { chain := disc.chain, state := after.1 } }
          world := after.2 }

theorem mapped_mapDiscNoting (mapper : MemoryMapper η) (disc : Chain η)
    (calls : List (HostCall η)) (before : disc.State × World η) :
    ∃ result more after, mapDiscNoting mapper disc calls before = ((result, calls ++ more), after) ∧
      Mapped mapper disc before result more after := by
  rcases hidentify : identify disc.source before with ⟨result, found⟩
  unfold mapDiscNoting
  rw [run_bind_state, run_lift_state, hidentify]
  cases result with
  | error cause =>
    refine ⟨_, [], found, ?_, .unexamined hidentify⟩
    rw [List.append_nil]
    rfl
  | ok kind =>
    cases hkind : kind.isDisc with
    | false =>
      refine ⟨_, [], found, ?_, .notADisc hidentify hkind⟩
      simp [hkind]
    | true =>
      rcases hremap : mapper.remap disc found with ⟨answer, after⟩
      refine ⟨_, _, after, ?_, .asked hidentify hkind hremap⟩
      dsimp only
      rw [hkind, if_pos rfl, run_bind_state, run_getThe_state]
      dsimp only
      rw [run_bind_state, run_noting_state, hremap]
      cases answer with
      | false => rfl
      | true => rfl

theorem run_insertDisc (disc : Layer η) (session : Session η) (world : World η) :
    insertDisc disc session world =
      (((), { session with disc := some disc }), (session.closeDisc world).2) := by
  obtain ⟨opener, host, state, disc?⟩ := session
  cases disc? with
  | none => rfl
  | some old => rfl

theorem run_useDiscNoting {α : Type}
    (action : (disc : Chain η) → Noting η (StateM (disc.State × World η)) α)
    (calls : List (HostCall η)) (session : Session η) (disc : Layer η) (world : World η) :
    useDiscNoting action calls { session with disc := some disc } world =
      let run := action disc.chain calls (disc.state, world)
      (((some run.1.1, run.1.2),
        { session with disc := some { chain := disc.chain, state := run.2.1 } }), run.2.2) := rfl

/-- **Every exchange ends in one of these ways.** -/
theorem exchanged (locator : Locator) (session : Session η) (world : World η) :
    Exchanged locator session world (observe (exchangeDiscNoting locator) session world) := by
  rcases hdrive : session.hasDrive world with ⟨mounted, w⟩
  have hmount : World.hostFocus.lift (session.host.files.hasMount discDrive) world = (mounted, w) :=
    hdrive
  unfold observe exchangeDiscNoting
  rw [run_bind_session, run_getThe_session]
  dsimp only
  rw [run_bind_session, run_noting_session, run_lift_world, hmount]
  dsimp only
  cases mounted with
  | false => exact .noDrive hdrive
  | true =>
    rcases hfind : session.findReplacement locator w with ⟨⟨present, layer⟩, w'⟩
    have hpresent : (session.opener.openLayer locator w).1.isPresent
        (session.opener.openLayer locator w).2 = ((present, layer), w') :=
      hfind
    rw [if_neg (by decide), run_bind_session, run_lift_world_session]
    dsimp only
    rw [run_bind_session, run_lift_world_session, hpresent]
    dsimp only
    cases present with
    | false => exact .notFound hdrive hfind
    | true =>
      rcases henter : session.opener.enterGameDirectory layer w' with ⟨disc, w''⟩
      obtain ⟨result, more, after, hrun, hmapped⟩ :=
        mapped_mapDiscNoting session.host.mapper disc.chain [.hasMount discDrive true]
          (disc.state, (session.closeDisc w'').2)
      rw [if_neg (by decide), run_bind_session, run_lift_world_session, henter]
      dsimp only
      rw [run_bind_session, run_lift_session]
      rw [run_insertDisc]
      dsimp only
      rw [run_bind_session, List.nil_append, run_useDiscNoting]
      dsimp only
      rw [hrun]
      exact .inserted hdrive hfind henter hmapped

/-! ### The law -/

/-- An examination has found a disc, in one of its three forms. -/
def FoundDisc (result : Identified) : Prop :=
  result = .ok (.disc .image) ∨ result = .ok (.disc .storeImage) ∨
    result = .ok (.disc .directory)

theorem foundDisc_ok_iff {kind : ImageKind} : FoundDisc (.ok kind) ↔ kind.isDisc = true := by
  unfold FoundDisc
  cases kind with
  | disc form => cases form <;> simp [ImageKind.isDisc]
  | _ => simp [ImageKind.isDisc]

/-- What every exchange of the disc keeps to. -/
structure ExchangeLaw (locator : Locator) (before : Session η) (world : World η)
    (after : Ended η (Except ExchangeError Unit)) : Prop where
  /-- Without a drive nothing is opened, and nothing changes. -/
  noDrive : ∀ w, before.hasDrive world = (false, w) →
    after =
      { result := .error .noDrive
        calls := [.hasMount discDrive false]
        session := before
        world := w }
  /-- The old disc stays if the replacement is not there, and no memory is mapped. -/
  notFound : ∀ w layer w', before.hasDrive world = (true, w) →
    before.findReplacement locator w = ((false, layer), w') →
      after.result = .error (.notFound locator.path) ∧ after.session = before ∧
        after.calls = [.hasMount discDrive true]
  /-- Otherwise the replacement is in the drive, or the container of its game directory, and memory
  is mapped for it exactly if it is found to be a disc. -/
  inserted : ∀ w layer w' disc w'', before.hasDrive world = (true, w) →
    before.findReplacement locator w = ((true, layer), w') →
      before.opener.enterGameDirectory layer w' = (disc, w'') →
        let examined := identify disc.chain.source (disc.state, (before.closeDisc w'').2)
        let remapped := after.calls.filterMap HostCall.remapped?
        (∃ state, after.session = { before with disc := some { chain := disc.chain, state } }) ∧
          (FoundDisc examined.1 →
            ∃ answer, remapped = [({ chain := disc.chain, state := examined.2.1 }, answer)]) ∧
          (¬FoundDisc examined.1 → remapped = [])
  ok_iff : after.result = .ok () ↔ ∃ disc, after.calls.filterMap HostCall.remapped? = [(disc, true)]
  notMapped_iff : after.result = .error .notMapped ↔
    ∃ disc, after.calls.filterMap HostCall.remapped? = [(disc, false)]
  state : after.session.state = before.state
  /-- No loader is called. -/
  loaders : after.calls.filterMap HostCall.loaderAnswer? = []
  /-- The directory to start in is not set. -/
  startDirectory : after.calls.filterMap HostCall.startDirectory? = []

/-- The calls for a disc that was put into the drive. -/
structure Mapped.Law (disc : Chain η) (examined : Identified × (disc.State × World η))
    (result : Except ExchangeError Unit) (calls : List (HostCall η)) : Prop where
  found : FoundDisc examined.1 → ∃ answer, calls.filterMap HostCall.remapped? =
    [({ chain := disc, state := examined.2.1 }, answer)]
  notFound : ¬FoundDisc examined.1 → calls.filterMap HostCall.remapped? = []
  ok_iff : result = .ok () ↔ ∃ disc, calls.filterMap HostCall.remapped? = [(disc, true)]
  notMapped_iff : result = .error .notMapped ↔
    ∃ disc, calls.filterMap HostCall.remapped? = [(disc, false)]
  loaders : calls.filterMap HostCall.loaderAnswer? = []
  startDirectory : calls.filterMap HostCall.startDirectory? = []

theorem Mapped.law {mapper : MemoryMapper η} {disc : Chain η} {before after : disc.State × World η}
    {result : Except ExchangeError Unit} {calls : List (HostCall η)}
    (h : Mapped mapper disc before result calls after) :
    Mapped.Law disc (identify disc.source before) result calls := by
  cases h with
  | unexamined hidentify =>
    have hno : ¬FoundDisc (identify disc.source before).1 := by
      rw [hidentify]
      simp [FoundDisc]
    constructor
    · exact fun hfound => absurd hfound hno
    all_goals simp
  | notADisc hidentify hkind =>
    have hno : ¬FoundDisc (identify disc.source before).1 := by
      rw [hidentify, foundDisc_ok_iff, hkind]
      exact Bool.false_ne_true
    constructor
    · exact fun hfound => absurd hfound hno
    all_goals simp
  | @asked kind found after answer hidentify hkind hremap =>
    rw [hidentify]
    constructor
    · exact fun _ => ⟨answer, rfl⟩
    · exact fun hno => absurd (foundDisc_ok_iff.mpr hkind) hno
    all_goals
      cases answer with
      | false => simp [List.filterMap_cons]
      | true => simp [List.filterMap_cons]

theorem Exchanged.law {locator : Locator} {before : Session η} {world : World η}
    {after : Ended η (Except ExchangeError Unit)} (h : Exchanged locator before world after) :
    ExchangeLaw locator before world after := by
  cases h with
  | noDrive hdrive =>
    constructor
    · intro w h
      cases hdrive.symm.trans h
      rfl
    · intro w layer w' h
      cases hdrive.symm.trans h
    · intro w layer w' disc w'' h
      cases hdrive.symm.trans h
    all_goals simp [List.filterMap_cons]
  | notFound hdrive hfind =>
    constructor
    · intro w h
      cases hdrive.symm.trans h
    · exact fun _ _ _ _ _ => ⟨rfl, rfl, rfl⟩
    · intro w layer w' disc w'' h hfind'
      cases hdrive.symm.trans h
      cases hfind.symm.trans hfind'
    all_goals simp [List.filterMap_cons]
  | inserted hdrive hfind henter hmapped =>
    have hlaw := hmapped.law
    constructor
    · intro w h
      cases hdrive.symm.trans h
    · intro w layer w' h hfind'
      cases hdrive.symm.trans h
      cases hfind.symm.trans hfind'
    · intro w layer w' disc w'' h hfind' henter'
      cases hdrive.symm.trans h
      cases hfind.symm.trans hfind'
      cases henter.symm.trans henter'
      exact ⟨⟨_, rfl⟩, hlaw.found, hlaw.notFound⟩
    · exact hlaw.ok_iff
    · exact hlaw.notMapped_iff
    · rfl
    · exact hlaw.loaders
    · exact hlaw.startDirectory

/-- **The exchange law.**  Whatever the factories, the files, the transport and the collaborators of
the host do, an exchange of the disc keeps to `ExchangeLaw`, with the calls that it makes. -/
theorem exchangeDisc_lawful (locator : Locator) (session : Session η) (world : World η) :
    let after := observe (exchangeDiscNoting locator) session world
    exchangeDisc locator session world = ((after.result, after.session), after.world) ∧
      ExchangeLaw locator session world after := by
  constructor
  · exact run_eq_observe (erases_exchangeDiscNoting locator) session world
  · exact (exchanged locator session world).law

end Session

end PspBoot
