import PspBoot.Image.Kind
import PspBoot.Text.Quoted

/-!
# What is reported to the user

An image that cannot be examined, a boot that fails and a disc that cannot be exchanged each have
their own causes.  The wording of every cause is given once, by its `message`.
-/

namespace PspBoot

/-- Why a target could not be examined. -/
inductive IdentifyError where
  /-- The locator has an empty path. -/
  | invalidPath (path : String)
  | notFound (path : String)
  /-- The first bytes of the file could not be read. -/
  | unreadable
deriving Repr, Inhabited, DecidableEq

/-- The text shown for an examination that failed. -/
def IdentifyError.message : IdentifyError → String
  | .invalidPath path => "Invalid filename " ++ String.ofList (Text.Quoted.encode path.toList)
  | .notFound path => "File doesn't exist: " ++ path
  | .unreadable => "Failed to read identification bytes"

/-- Why a boot attempt failed. -/
inductive BootError where
  /-- A game directory without a usable container in it. -/
  | noContainer
  /-- A game of the preceding console generation. -/
  | ps1Game
  /-- An archive, and the program that unpacks it. -/
  | archive (format tool : String)
  /-- A raw disc image of another console. -/
  | rawDisc
  | directory
  | saveState
  | saveData
  | unknown (path : String)
  /-- The image could not be examined; its source may have recorded the cause. -/
  | unexamined (cause : IdentifyError) (ioError : Option String)
  /-- The loader refused the image, and said why. -/
  | refused (reason : String)
deriving Repr, Inhabited, DecidableEq

namespace BootError

/-- The non-empty parts of a diagnosis, joined by colons. -/
def joinDiagnosis (parts : List String) : String :=
  match parts.filter (· ≠ "") with
  | [] => "Error reading file"
  | told => ": ".intercalate told

/-- The text shown for a boot attempt that failed. -/
def message : BootError → String
  | .noContainer => "No EBOOT.PBP, misidentified game"
  | .ps1Game => "PS1 EBOOTs are not supported by this emulator."
  | .archive format tool => format ++ " file detected (Require " ++ tool ++ ")"
  | .rawDisc => "PSX game image detected."
  | .directory => "Just a directory."
  | .saveState => "This is a saved state, not a game."
  | .saveData => "This is save data, not a game."
  | .unknown path => "Unknown file type: " ++ path
  | .unexamined cause ioError => joinDiagnosis (cause.message :: ioError.toList)
  | .refused reason => reason

/-- The failure that names the program to unpack an archive with. -/
def ofArchive (format : ArchiveFormat) : BootError :=
  .archive format.name format.unpacker

end BootError

/-- Why a disc was not exchanged. -/
inductive ExchangeError where
  /-- There is no disc drive to put it in. -/
  | noDrive
  | notFound (path : String)
  /-- The replacement is no disc image: what it is instead, and a note on that. -/
  | notADisc (kind note : String)
  /-- The new disc is in place, but memory could not be mapped for it. -/
  | notMapped
deriving Repr, Inhabited, DecidableEq

/-- The text shown for an exchange that failed. -/
def ExchangeError.message : ExchangeError → String
  | .noDrive => "has no disc"
  | .notFound path => path ++ " doesn't exist"
  | .notADisc kind note => "Unsupported file type: " ++ kind ++ " " ++ note
  | .notMapped => "reinit memory failed"

end PspBoot
