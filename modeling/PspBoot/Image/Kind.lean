/-!
# Kinds of game images

`ImageKind` lists what a file or directory can turn out to be.  That a target could not be
examined at all is not a kind but an error.
-/

namespace PspBoot

/-- The form in which a disc is stored. -/
inductive DiscForm where
  /-- An image of the whole disc. -/
  | image
  /-- An image from the online store, packed into a container. -/
  | storeImage
  /-- A directory with the files of a disc. -/
  | directory
deriving Repr, Inhabited, DecidableEq

/-- The format of an archive. -/
inductive ArchiveFormat where
  | zip
  | rar
  | sevenZip
deriving Repr, Inhabited, DecidableEq

namespace ArchiveFormat

/-- The name of a format. -/
def name : ArchiveFormat → String
  | .zip => "ZIP"
  | .rar => "RAR"
  | .sevenZip => "7z"

/-- The program that unpacks archives of a format. -/
def unpacker : ArchiveFormat → String
  | .zip | .rar => "UnRAR"
  | .sevenZip => "7-Zip"

end ArchiveFormat

/-- What a file or directory turned out to be. -/
inductive ImageKind where
  | disc (form : DiscForm)
  /-- A raw image of another console's disc, with sectors of 2352 bytes. -/
  | rawDisc
  /-- An executable with a name under which it can be started. -/
  | executable
  /-- An executable with any other name. -/
  | otherExecutable
  /-- A container outside a game directory. -/
  | container
  /-- A container in a game directory, or such a directory. -/
  | installedGame
  /-- A container with a game of the preceding console generation. -/
  | ps1Game
  /-- A saved state of an emulator. -/
  | saveState
  /-- A directory with data saved by a game. -/
  | saveData
  /-- A directory with nothing known in it. -/
  | directory
  /-- A recorded trace of graphics commands. -/
  | trace
  /-- An archive, or a part of one. -/
  | archive (format : ArchiveFormat)
  /-- A `.bin` file with unknown content. -/
  | binary
  /-- Anything else. -/
  | unknown
deriving Repr, Inhabited, DecidableEq

namespace ImageKind

/-- The name of a kind in messages. -/
def name : ImageKind → String
  | .disc .image => "PSP disc image"
  | .disc .storeImage => "PSN disc image"
  | .disc .directory => "disc directory"
  | .rawDisc => "Mode 2 disc image"
  | .executable => "executable"
  | .otherExecutable => "unrecognized executable"
  | .container => "PBP container"
  | .installedGame => "PBP game directory"
  | .ps1Game => "PS1 PBP container"
  | .saveState => "save state"
  | .saveData => "save data directory"
  | .directory => "directory"
  | .trace => "graphics trace dump"
  | .archive .zip => "ZIP archive"
  | .archive .rar => "RAR archive"
  | .archive .sevenZip => "7-Zip archive"
  | .binary => "unknown binary"
  | .unknown => "unknown"

/-- Whether the image can be mounted as the disc. -/
def isDisc : ImageKind → Bool
  | .disc _ => true
  | _ => false

/-- Whether the file has to be unpacked by another program first. -/
def isArchive : ImageKind → Bool
  | .archive _ => true
  | _ => false

end ImageKind

end PspBoot
