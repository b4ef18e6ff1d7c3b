import PspBoot.Diagnosis
import PspBoot.Image.Container
import PspBoot.Image.ParameterFile

/-!
# Identification

`identify` finds out what the target of a source is.  It looks, in this order, at the extensions
that decide by themselves, at the entries of a directory, at the first four bytes of a file and
what they lead to, and last at the remaining extensions.
-/

namespace PspBoot

namespace Identify

variable {σ : Type}

/-- The beginning of the path of installed games on a memory stick. -/
def gameDirectoryMark : String := "PSP/GAME/"

/-- The length below which the path of a directory cannot lead to a game. -/
def minDirectoryPath : Nat := 5

/-- The extensions under which an executable can be started. -/
def launchableExtensions : List String := [".plf", ".elf", ".prx", ".pbp"]

/-- The category that marks games of the preceding console generation. -/
def ps1Mark : String := "ME"

/-- The kind of an `.iso` file.  A raw image consists of whole raw sectors and begins with their
sync bytes. -/
def discFile (source : Source σ) : StateM σ ImageKind := do
  let size ← source.size
  if size > 0 ∧ size % Signature.sectorSize = 0 then
    if (← source.readExactly 0 12) = some Signature.sectorSync then
      pure .rawDisc
    else
      pure (.disc .image)
  else
    pure (.disc .image)

/-- The kind of a directory, by the first of three names it has an entry of. -/
def directory (source : Source σ) : StateM σ ImageKind := do
  if source.locator.size < minDirectoryPath then
    pure .directory
  else if ← source.hasEntry Locator.ebootName then
    pure .installedGame
  else if ← source.hasEntry "PSP_GAME" then
    pure (.disc .directory)
  else if ← source.hasEntry "PARAM.SFO" then
    pure .saveData
  else
    pure .directory

/-- The kind of an executable, by its name. -/
def executable (locator : Locator) : ImageKind :=
  if locator.extension ∈ launchableExtensions ∨
      Text.occursIn "BOOT.BIN".toList locator.filename.toList then
    .executable
  else
    .otherExecutable

/-- Whether the parameters of a container give it the category of the preceding console
generation. -/
def hasPs1Category (source : Source σ) : StateM σ Bool := do
  match ← ContainerHeader.read? source with
  | none => pure false
  | some header =>
      match ← header.part? source .parameters with
      | none => pure false
      | some blob =>
          match ParameterFile.parse? blob with
          | none => pure false
          | some file => pure (file.text? "CATEGORY" = some ps1Mark.toList)

/-- The kind of a container, by its category, the first bytes of its data archive and its path. -/
def container (source : Source σ) : StateM σ ImageKind := do
  if ← hasPs1Category source then
    pure .ps1Game
  else
    let offset ← source.readWord ContainerHeader.archivePointer
    let tag ← source.readExactly offset.toNat 4
    if tag = some Signature.storeArchiveHead then
      pure (.disc .storeImage)
    else if tag = some Signature.ps1ArchiveHead then
      pure .ps1Game
    else if source.locator.contains gameDirectoryMark then
      pure .installedGame
    else
      pure .container

/-- The kind of a file without a known signature. -/
def byExtension (extension : String) : ImageKind :=
  match extension with
  | ".pbp" => .container
  | ".bin" => .binary
  | ".zip" => .archive .zip
  | ".rar" | ".r00" | ".r01" => .archive .rar
  | ".7z" => .archive .sevenZip
  | _ => .unknown

/-- The kind of a file, given its first four bytes. -/
def byHead (source : Source σ) (head : Bytes) : StateM σ ImageKind :=
  match Signature.ofHead? head with
  | some .zip => pure (.archive .zip)
  | some .rar => pure (.archive .rar)
  | some .executable => pure (executable source.locator)
  | some .container => container source
  | none => pure (byExtension source.locator.extension)

/-- The kind of a directory or file whose extension has not decided it.  A file that has fewer
than four bytes is examined all the same; any other short read is a failure. -/
def byContent (source : Source σ) : StateM σ (Except IdentifyError ImageKind) := do
  if ← source.isDirectory then
    pure (.ok (← directory source))
  else
    let head ← source.readAt 0 4
    if head.length < min (← source.size) 4 then
      pure (.error .unreadable)
    else
      pure (.ok (← byHead source head))

end Identify

open Identify in
/-- What the target of a source is. -/
def identify {σ : Type} (source : Source σ) : StateM σ (Except IdentifyError ImageKind) := do
  if source.locator.isEmpty then
    pure (.error (.invalidPath source.locator.path))
  else if !(← source.isPresent) then
    pure (.error (.notFound source.locator.path))
  else
    match source.locator.extension with
    | ".iso" => pure (.ok (← discFile source))
    | ".cso" => pure (.ok (.disc .image))
    | ".ppst" => pure (.ok .saveState)
    | ".ppdmp" =>
        if (← source.readExactly 0 8) = some Signature.traceHead then
          pure (.ok .trace)
        else
          byContent source
    | _ => byContent source

end PspBoot
