import PspBoot.Proofs.Image.Identify
import PspBoot.Proofs.Image.ReadBounds
import PspBoot.Proofs.Session.Calls

/-!
# Archives are refused unread

Identification makes few reads of a source, whatever the source is.  A layer that it takes for an
archive is closed and asked nothing more (`run_boot_archive`), so that what has been read of an
archive when it is refused are a few bytes at its beginning (`bounded_examination`).
-/

namespace PspBoot

variable {η : Type}

/-- Closing a chain is no business of the host's. -/
theorem Chain.host_close (chain : Chain η) (world : World η) :
    (chain.close world).2.host = world.host := by
  induction chain generalizing world with
  | supplied | localFile | remote => rfl
  | retrying _ _ ih | memoryCached _ _ ih => exact ih world
  | diskCached store inner ih =>
    rw [close, run_bind]
    cases store with
    | none | some => exact ih world

namespace Session

/-! ### Running an action of a session -/

section Run

variable {α β : Type} (session : Session η) (world : World η)

theorem run_bind_sessionM (action : SessionM η α) (next : α → SessionM η β) :
    (action >>= next) session world =
      next (action session world).1.1 (action session world).1.2 (action session world).2 := rfl

theorem run_pure_sessionM (a : α) :
    (pure a : SessionM η α) session world = ((a, session), world) := rfl

theorem run_get_sessionM :
    (get : SessionM η (Session η)) session world = ((session, session), world) := rfl

theorem run_modify_sessionM (f : Session η → Session η) :
    (modify f : SessionM η PUnit) session world = ((⟨⟩, f session), world) := rfl

end Run

/-! ### Archives -/

variable {layer : Layer η} {world world' : World η} {format : ArchiveFormat}

/-- A boot attempt that is refused leaves the world as the decision has left it. -/
theorem run_boot_of_error {session : Session η} {error : BootError}
    (h : prepare session.opener layer world = (.error error, world')) :
    boot layer session world = ((.error error, { session with state := .failed }), world') := by
  simp only [boot, run_bind_sessionM, run_modify_sessionM, run_get_sessionM, run_pure_sessionM,
    run_lift_world, h]

/-- **An archive is refused, and nothing is done with it but to close it.** -/
theorem run_boot_archive (session : Session η)
    (h : (layer.identify world).1.1 = .ok (.archive format)) :
    boot layer session world =
      ((.error (.ofArchive format), { session with state := .failed }),
        ((layer.identify world).1.2.close (layer.identify world).2).2) := by
  apply run_boot_of_error
  rw [prepare, run_bind]
  generalize layer.identify world = examined at h ⊢
  obtain ⟨⟨result, layer⟩, world⟩ := examined
  obtain rfl : result = .ok (.archive format) := h
  rfl

/-- A layer on a source of the host's own is identified as the source is. -/
theorem identify_supplied (source : Source η) (world : World η) :
    (Layer.supplied source).identify world =
      (((identify source world.host).1, Layer.supplied source),
        { world with host := (identify source world.host).2 }) := by
  have hwithin : identify (Layer.supplied source).chain.source =
      Chain.onHost.lift (identify source) := identify_within source Chain.onHost
  rw [Layer.identify, hwithin]
  rfl

/-- A session whose collaborators accept whatever they are given. -/
def obliging (η : Type) : Session η where
  opener := { factories := {}, config := .standard "", transport := none }
  host :=
    { files := { setStartDirectory := fun _ => pure (), hasMount := fun _ => pure true }
      loaders :=
        { disc := fun _ => pure (.ok ())
          executable := fun _ => pure (.ok ())
          trace := fun _ => pure (.ok ()) }
      mapper := { remap := fun _ => pure true } }

/-- An archive with the name of a trace. -/
def misnamedArchive : Source Unit :=
  .ofContent (.ofPath "/dumps/frame.ppdmp")
    [0x52, 0x61, 0x72, 0x21, 0x1A, 0x07, 0x01, 0x00, 0x33, 0x92]

/-- **The examination of a layer is bounded.**  Whatever a source is, identification makes at most
six reads of it, none of more than 1 MiB and none but those of the first bytes if it is taken for an
archive.  A boot attempt on a layer that is taken for an archive is refused, and all it does behind
the identification is to close the layer; so there are no further reads. -/
theorem bounded_examination :
    (∀ {σ : Type} (source : Source σ) (log : List SourceRead) (s : σ), ∃ reads,
      identify source.recorded (log, s) =
          ((identify source s).1, (log ++ reads, (identify source s).2)) ∧
        Identify.Examined 6 (1024 * 1024 + 60) (Identify.archiveSpans source.locator.extension)
          (identify source s).1 reads) ∧
    (∀ {η : Type} (layer : Layer η) (session : Session η) (world : World η)
      (format : ArchiveFormat),
      let examined := layer.identify world
      let closed := examined.1.2.close examined.2
      examined.1.1 = .ok (.archive format) →
      boot layer session world =
          ((.error (.ofArchive format), { session with state := .failed }), closed.2) ∧
        closed.2.host = examined.2.host) ∧
    ∀ {η : Type} (source : Source η) (session : Session (List SourceRead × η))
      (world : World (List SourceRead × η)) (format : ArchiveFormat),
      let examined := identify source world.host.2
      examined.1 = .ok (.archive format) → ∃ reads,
        boot (Layer.supplied source.recorded) session world =
            ((.error (.ofArchive format), { session with state := .failed }),
              { world with host := (world.host.1 ++ reads, examined.2) }) ∧
          reads.map SourceRead.span = Identify.archiveSpans source.locator.extension := by
  refine ⟨?_, ?_, ?_⟩
  · intro σ source log s
    obtain ⟨reads, hrun, -, hreads⟩ := Identify.records_identify source log s trivial
    exact ⟨reads, hrun, hreads⟩
  · intro η layer session world format examined closed harchive
    exact ⟨run_boot_archive session harchive, Chain.host_close _ _⟩
  · intro η source session world format examined harchive
    obtain ⟨reads, hrun, -, hreads⟩ :=
      Identify.records_identify source world.host.1 world.host.2 trivial
    have hlayer := identify_supplied source.recorded world
    have hhost : world.host = (world.host.1, world.host.2) := rfl
    rw [hhost, hrun] at hlayer
    refine ⟨reads, ?_, hreads.archive format harchive⟩
    have hfound :
        ((Layer.supplied source.recorded).identify world).1.1 = .ok (.archive format) := by
      rw [hlayer]
      exact harchive
    rw [run_boot_archive session hfound, hlayer]
    rfl

/-- An archive with the name of a trace is refused after two reads. -/
theorem bounded_examination_misnamed :
    let layer := Layer.supplied misnamedArchive.recorded
    let session := obliging (List SourceRead × Unit)
    let world : World (List SourceRead × Unit) := { host := ([], ()) }
    let run := boot layer session world
    (identify misnamedArchive ()).1 = .ok (.archive .rar) ∧
      (layer.identify world).1.1 = .ok (.archive .rar) ∧
      run.1.1 = .error (.archive "RAR" "UnRAR") ∧
      run.2.host.1.map SourceRead.span = [(0, 8), (0, 4)] ∧
      run.2.host = (layer.identify world).2.host := by
  intro layer session world run
  have hsource : (identify misnamedArchive ()).1 = .ok (.archive .rar) := rfl
  have hlayer : (layer.identify world).1.1 = .ok (.archive .rar) := by
    rw [identify_supplied]
    rfl
  obtain ⟨reads, hread, hspans⟩ :=
    bounded_examination.2.2 misnamedArchive session world .rar hsource
  obtain ⟨hrefused, hhost⟩ := bounded_examination.2.1 layer session world .rar hlayer
  have hextension : Identify.archiveSpans misnamedArchive.locator.extension = [(0, 8), (0, 4)] := by
    decide
  have hrun : run = _ := hread
  refine ⟨hsource, hlayer, ?_, ?_, ?_⟩
  · rw [hrun]
    rfl
  · rw [hrun]
    exact hspans.trans hextension
  · exact (congrArg (fun run => run.2.host) hrefused).trans hhost

end Session

end PspBoot
