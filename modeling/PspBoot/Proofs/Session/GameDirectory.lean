import PspBoot.Proofs.Image.InstalledGame
import PspBoot.Proofs.Locator.GameDirectory
import PspBoot.Session.GameDirectory

/-!
# Entering a game directory

`Opener.enterGameDirectory` is to leave every layer as it is, except for that of a game directory,
which it replaces by a layer on the container inside.  `Opener.KeepsTarget` says what this comes to:
whatever was there is still there, a file is returned as it is, and only what was identified as an
installed game is replaced.

Directories are entered as they should be if they tell the truth about what the opener finds in them.
Files are not always left alone.  A container on a path through the game directory of a memory stick
is identified as an installed game, just as a directory is, and unless it has the very name that is
looked for in directories it is mistaken for one (`Layer.IsMistaken`).  It is replaced by a layer on an
entry of that file, and there is no such thing.  This is the only way in which a target can be lost
(`Opener.keepsTarget_of_isThere`).
-/

namespace PspBoot

open Locator (ebootName)

variable {η : Type} {opener : Opener η} {layer : Layer η} {directory : Bool} {world : World η}

/-! ### What may happen to a layer -/

/-- The layer after it has been identified, in the world after that. -/
def Layer.examined (layer : Layer η) (world : World η) : Layer η × World η :=
  ((layer.identify world).1.2, (layer.identify world).2)

/-- The file is mistaken for a game directory: it is identified as one, and its name does not tell
that the container has been found already. -/
def Layer.IsMistaken (layer : Layer η) (directory : Bool) (world : World η) : Prop :=
  directory = false ∧ (layer.identify world).1.1 = .ok .installedGame ∧
    layer.locator.filename ≠ ebootName

namespace Opener

/-- Whether something is found at a locator when it is opened. -/
def leadsSomewhere (opener : Opener η) (locator : Locator) : StateM (World η) Bool := do
  let layer ← opener.openLayer locator
  let (present, _) ← layer.isPresent
  pure present

/-- A directory says that it has an entry of the given name exactly if the opener, once the directory
has been closed, finds something at the locator of that entry. -/
def TruthfulAbout (opener : Opener η) (chain : Chain η) (V : chain.State × World η → Prop)
    (name : String) : Prop :=
  ∀ s, V s →
    let asked := chain.source.hasEntry name s
    asked.1 = (opener.leadsSomewhere (chain.locator.join name) (chain.close asked.2.2).2).1

/-- The layers that are opened go by the locators that they were opened for. -/
def Names (opener : Opener η) : Prop :=
  ∀ locator world, (opener.openLayer locator world).1.locator = locator

/-- What is expected of entering a game directory. -/
structure KeepsTarget (opener : Opener η) (layer : Layer η) (directory : Bool) (world : World η) :
    Prop where
  /-- The target of the layer that is returned is there. -/
  present :
    let (entered, after) := opener.enterGameDirectory layer world
    (entered.isPresent after).1.1 = true
  /-- A file is returned as it is. -/
  file : directory = false → opener.enterGameDirectory layer world = layer.examined world
  locator : directory = false →
    (opener.enterGameDirectory layer world).1.locator = layer.locator
  /-- Only a directory with a game in it is replaced. -/
  replaced : opener.enterGameDirectory layer world ≠ layer.examined world →
    directory = true ∧ (layer.identify world).1.1 = .ok .installedGame

/-- **Only what is identified as an installed game and has another name than its container is
entered.**  Its layer is closed before the container is opened. -/
theorem run_enterGameDirectory (opener : Opener η) (layer : Layer η) (world : World η) :
    opener.enterGameDirectory layer world =
      if (layer.identify world).1.1 = .ok .installedGame ∧ layer.locator.filename ≠ ebootName then
        opener.openLayer (layer.locator.join ebootName) (layer.close (layer.identify world).2).2
      else
        layer.examined world := by
  -- Identification changes the state of a chain, but not the chain.
  have hlocator : (layer.identify world).1.2.locator = layer.locator := rfl
  have hclose : (layer.identify world).1.2.close = layer.close := rfl
  rw [enterGameDirectory, run_bind, Layer.examined, ← hlocator, ← hclose]
  generalize layer.identify world = asked
  obtain ⟨⟨result, layer⟩, world⟩ := asked
  dsimp only
  split
  · rw [run_ite, run_pure, run_bind]
    by_cases hname : layer.locator.filename = ebootName
    · rw [if_pos (Locator.gameFile_of_name hname), if_neg fun h => h.2 hname]
    · rw [if_neg fun h => hname ((Locator.gameFile_eq_self_iff _).mp h), if_pos ⟨rfl, hname⟩,
        Locator.gameFile_of_ne hname]
  · next hother => rw [if_neg fun h => hother h.1, run_pure]

/-! ### What becomes of the target -/

variable {V : layer.chain.State × World η → Prop}

/-- Where the layer is returned as it is, the target is kept. -/
theorem keepsTarget_of_eq (h : layer.chain.source.IsThere directory V) (hV : V (layer.state, world))
    (hsame : opener.enterGameDirectory layer world = layer.examined world) :
    opener.KeepsTarget layer directory world where
  present := by
    rw [hsame]
    exact (h.isPresent _ (h.identify hV)).1
  file _ := hsame
  locator _ := by
    rw [hsame]
    rfl
  replaced hother := absurd hsame hother

/-- A game directory that tells the truth leads to a container that is there. -/
theorem keepsTarget_of_directory (h : layer.chain.source.IsThere true V)
    (hV : V (layer.state, world)) (htruthful : opener.TruthfulAbout layer.chain V ebootName)
    (hgame : (layer.identify world).1.1 = .ok .installedGame)
    (hname : layer.locator.filename ≠ ebootName) : opener.KeepsTarget layer true world where
  present := by
    obtain ⟨t, ht, hentry⟩ := h.hasEntry_of_installedGame hV hgame
    have hleads := htruthful t ht
    rw [hentry] at hleads
    rw [run_enterGameDirectory, if_pos ⟨hgame, hname⟩]
    exact hleads.symm
  file := nofun
  locator := nofun
  replaced _ := ⟨rfl, hgame⟩

/-- A file that is mistaken for a directory is not returned. -/
theorem not_keepsTarget_of_isMistaken (hnames : opener.Names)
    (h : layer.IsMistaken directory world) : ¬opener.KeepsTarget layer directory world := by
  obtain ⟨hfile, hgame, hname⟩ := h
  intro hkeeps
  -- If the layer of the container went by the locator of the file, the file would have its name.
  have hlocator := hkeeps.locator hfile
  rw [run_enterGameDirectory, if_pos ⟨hgame, hname⟩, hnames] at hlocator
  apply hname
  rw [← Locator.gameFile_eq_self_iff, Locator.gameFile_of_ne hname]
  exact hlocator

/-- **The target is kept unless a file is mistaken for a directory.**  For any opener, and any layer
whose target is there, be it a file or a directory that tells the truth about the container in it:
the target is kept if the layer is not mistaken, and only then if layers go by the locators that they
were opened for. -/
theorem keepsTarget_of_isThere (opener : Opener η) (world : World η)
    (h : layer.chain.source.IsThere directory V) (hV : V (layer.state, world))
    (htruthful : directory = true → opener.TruthfulAbout layer.chain V ebootName) :
    (¬layer.IsMistaken directory world → opener.KeepsTarget layer directory world) ∧
      (opener.Names → layer.IsMistaken directory world →
        ¬opener.KeepsTarget layer directory world) := by
  refine ⟨fun hright => ?_, not_keepsTarget_of_isMistaken⟩
  have hrun := run_enterGameDirectory opener layer world
  split at hrun
  · next hentered =>
    obtain ⟨hgame, hname⟩ := hentered
    cases directory with
    | true => exact keepsTarget_of_directory h hV (htruthful rfl) hgame hname
    | false => exact absurd ⟨rfl, hgame, hname⟩ hright
  · exact keepsTarget_of_eq h hV hrun

/-! ### Openers and directories that are as they should be -/

/-- Layers go by the locators that they were opened for if those of the factories do. -/
theorem names_of_factories
    (h : ∀ entry ∈ opener.factories.entries, ∀ locator world,
      (entry.2 locator world).1.locator = locator) : opener.Names := by
  intro locator world
  unfold openLayer
  split
  · unfold openRemote
    cases opener.config.effectiveCacheDirectory with
    | none => rfl
    | some directory => rfl
  · cases hfind : opener.factories.find? locator with
    | none => rfl
    | some entry => exact h entry (List.mem_of_find?_eq_some hfind) locator world

end Opener

namespace LocalFile

theorem present_look (files : FileTree) (path : String) :
    (look files path).present = files.pathExists path := by
  unfold look FileTree.pathExists
  cases files.stat path with
  | error error => rfl
  | ok node =>
    cases node with
    | directory | file | socket => rfl

end LocalFile

namespace Chain

/-- What was found at a path when it was opened stays there. -/
theorem isThere_localFile (locator : Locator) (file : LocalFile) (h : file.present = true) :
    (localFile locator file : Chain η).source.IsThere file.directory fun _ => True where
  isPresent _ _ := ⟨h, trivial⟩
  isDirectory _ _ := ⟨rfl, trivial⟩
  size _ _ := trivial
  readAt _ _ _ _ := trivial
  hasEntry _ _ _ := trivial

end Chain

namespace Locator

/-- A name is joined to a path that does not end in a separator as file systems join it. -/
theorem path_join_eq (locator : Locator) {name : String} (front : List Char) {c : Char}
    (hpath : locator.path.toList = front ++ [c]) (hc : Path.isSeparator c = false)
    (hname : Path.IsName name.toList) : (locator.join name).path = FilePath.join locator.path name := by
  have hslash : c ≠ '/' := by
    rintro rfl
    cases hc
  have hrelative : FilePath.isAbsolute name = false := by
    obtain ⟨first, rest, hfirst⟩ := List.exists_cons_of_ne_nil hname.ne_nil
    have hsolid := hname.solid first (by rw [hfirst]; exact List.mem_cons_self)
    rw [FilePath.isAbsolute, hfirst, List.head?_cons, decide_eq_false_iff_not, Option.some_inj]
    rintro rfl
    cases hsolid
  have hlast : Path.IsName [c] := ⟨List.cons_ne_nil c [], by simpa using hc⟩
  have htrimmed : Path.trimmed locator.path.toList = front ++ [c] := by
    rw [hpath]
    exact Path.trimmed_append front hlast .nil
  rw [← String.toList_inj, toList_path_join, Path.join_inside _ hc htrimmed, FilePath.join, hrelative,
    if_neg Bool.false_ne_true, hpath, List.getLast?_concat]
  dsimp only
  rw [if_neg hslash]
  simp [hpath]

end Locator

namespace Opener

/-- **A local directory tells the truth about its entries** if its path does not end in a separator
and no factory is responsible for the entry. -/
theorem truthfulAbout_localFile {locator : Locator} {file : LocalFile} {name : String}
    (hdirectory : file.directory = true) (hlocal : locator.isNetwork = false)
    (hfactory : opener.factories.find? (locator.join name) = none)
    (hpath : (locator.join name).path = FilePath.join locator.path name) :
    opener.TruthfulAbout (.localFile locator file) (fun _ => True) name := by
  intro s _
  have hnetwork : (locator.join name).isNetwork = false := by
    rw [Locator.isNetwork, Locator.scheme_join]
    exact hlocal
  have hopen (world : World η) : opener.openLayer (locator.join name) world =
      (⟨.localFile (locator.join name)
        (.look world.storage.files (FilePath.join locator.path name)), ()⟩, world) := by
    rw [openLayer, hnetwork, hfactory, ← hpath]
    rfl
  dsimp only
  rw [leadsSomewhere, run_bind, Chain.locator, hopen]
  change (file.directory && _) = LocalFile.present _
  rw [hdirectory, Bool.true_and, LocalFile.present_look]
  rfl

/-! ### Two games on a memory stick -/

/-- Opens local files only. -/
def ofFiles : Opener Unit where
  factories := {}
  config := .standard ""
  transport := none

theorem names_ofFiles : ofFiles.Names :=
  names_of_factories nofun

/-- The directory of a game is entered, and its container is there. -/
theorem keepsTarget_memoryStick :
    let files := FileTree.putFile {} "PSP/GAME/DEMO/EBOOT.PBP" Signature.containerHead
    let world : World Unit := { storage := { files }, host := () }
    let layer := (ofFiles.openLayer (.ofPath "PSP/GAME/DEMO") world).1
    layer.chain.source.IsThere true (fun _ => True) ∧
      ofFiles.TruthfulAbout layer.chain (fun _ => True) ebootName ∧
      ofFiles.KeepsTarget layer true world ∧
      (ofFiles.enterGameDirectory layer world).1.locator = .ofPath "PSP/GAME/DEMO/EBOOT.PBP" := by
  intro files world layer
  have hthere : layer.chain.source.IsThere true (fun _ => True) :=
    Chain.isThere_localFile (.ofPath "PSP/GAME/DEMO") (.look files "PSP/GAME/DEMO")
      (by decide +kernel)
  have htruthful : ofFiles.TruthfulAbout layer.chain (fun _ => True) ebootName :=
    truthfulAbout_localFile (by decide +kernel) (by decide +kernel) (by decide +kernel)
      (Locator.path_join_eq _ "PSP/GAME/DEM".toList (c := 'O') (by decide) (by decide)
        Locator.isName_ebootName)
  have hkept := keepsTarget_of_isThere ofFiles world hthere trivial fun _ => htruthful
  refine ⟨hthere, htruthful, hkept.1 nofun, ?_⟩
  decide +kernel

/-- A container on the memory stick that has another name is mistaken for a directory, and what it is
replaced by is not there. -/
theorem not_keepsTarget_renamed :
    let files := FileTree.putFile {} "PSP/GAME/DEMO/game.pbp" Signature.containerHead
    let world : World Unit := { storage := { files }, host := () }
    let layer := (ofFiles.openLayer (.ofPath "PSP/GAME/DEMO/game.pbp") world).1
    let (entered, after) := ofFiles.enterGameDirectory layer world
    layer.chain.source.IsThere false (fun _ => True) ∧ layer.IsMistaken false world ∧
      entered.locator = .ofPath "PSP/GAME/DEMO/game.pbp/EBOOT.PBP" ∧
      (entered.isPresent after).1.1 = false ∧ ¬ofFiles.KeepsTarget layer false world := by
  intro files world layer
  have hmistaken : layer.IsMistaken false world := ⟨rfl, by decide +kernel, by decide +kernel⟩
  refine ⟨?_, hmistaken, by decide +kernel, by decide +kernel, ?_⟩
  · exact Chain.isThere_localFile (.ofPath "PSP/GAME/DEMO/game.pbp")
      (.look files "PSP/GAME/DEMO/game.pbp") (by decide +kernel)
  · exact not_keepsTarget_of_isMistaken names_ofFiles hmistaken

end Opener

end PspBoot
