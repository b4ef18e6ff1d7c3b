import PspBoot.Storage.FileContent
import PspBoot.Storage.FileError
import PspBoot.Storage.FilePath

/-!
# File systems

A `FileTree` is what a program sees of a file system: the directories, files and sockets below the
working directory, and those that absolute paths lead to, each at a place given by the names that
lead to it.  The two are kept apart, as if the working directory could not be reached from the root.
What lies above it is outside, a directory into which nothing can be seen and in which nothing can
be made.

The content of a file has a life of its own.  Its number stays valid after the file has been
removed, so whoever opened the file goes on reading and writing the same content, and a file that
is written anew keeps its number.
-/

namespace PspBoot

/-- The number of a file's content. -/
abbrev FileId := Nat

/-- What stands at a place of a file system. -/
inductive FileNode where
  | directory
  | file (id : FileId)
  | socket
deriving Repr, Inhabited, DecidableEq

/-- A place of a file system. -/
inductive Place where
  | outside
  /-- The place that the names lead to, the last name first: from the working directory, or from the
  root if the name behind them all is that of the root. -/
  | inside (names : List String)
deriving Repr, Inhabited, DecidableEq

namespace Place

/-- The name of the root directory.  No other directory and no file can have it. -/
def rootName : String := "/"

/-- The root directory. -/
def root : Place := .inside [rootName]

/-- Whether names lead no further than to the working directory or the root, which are always
there. -/
def isTop (names : List String) : Bool :=
  names = [] || names = [rootName]

/-- The directory that contains a place.  The root contains itself. -/
def up : Place → Place
  | .outside => .outside
  | .inside [] => .outside
  | .inside (name :: names) => if isTop (name :: names) then root else .inside names

end Place

/-- The files and directories that a program sees. -/
structure FileTree where
  entries : List (List String × FileNode) := []
  /-- The contents of all files there have been, by number. -/
  contents : List FileContent := []
deriving Repr, Inhabited, DecidableEq

namespace FileTree

/-! ### Looking up paths -/

/-- What stands at a place. -/
def node? (tree : FileTree) : Place → Option FileNode
  | .outside => some .directory
  | .inside names => if Place.isTop names then some .directory else tree.entries.lookup names

/-- The longest name of an entry in bytes. -/
def maxNameSize : Nat := 255

/-- The number of bytes from which on a path is refused. -/
def maxPathSize : Nat := 4096

/-- The place of an entry of a directory, whether there is such an entry or not. -/
def slot (tree : FileTree) (directory : Place) (name : String) : Except FileError Place :=
  match tree.node? directory, directory with
  | some .directory, .inside names =>
      if maxNameSize < name.utf8ByteSize then
        .error .nameTooLong
      else
        .ok (.inside (name :: names))
  | some .directory, .outside => .error .notFound
  | _, _ => .error .notADirectory

/-- The place reached from another one by a name. -/
def step (tree : FileTree) (place : Place) (name : String) : Except FileError Place :=
  if FilePath.isHere name ∨ name = ".." then
    match tree.node? place with
    | some .directory => .ok (if name = ".." then place.up else place)
    | _ => .error .notADirectory
  else
    match tree.slot place name with
    | .error error => .error error
    | .ok found => if (tree.node? found).isSome then .ok found else .error .notFound

/-- Where the names of a path start to be followed. -/
def origin (path : String) : Place :=
  if FilePath.isAbsolute path then .root else .inside []

/-- The reason to refuse a path whatever the files are. -/
def pathFault? (path : String) : Option FileError :=
  if path.toList.contains '\x00' then some .nulInPath
  else if path.toList = [] then some .notFound
  else if maxPathSize ≤ path.utf8ByteSize then some .nameTooLong
  else none

/-- The place that a path leads to; something stands there. -/
def resolve (tree : FileTree) (path : String) : Except FileError Place :=
  match pathFault? path with
  | some error => .error error
  | none => (FilePath.names path).foldlM tree.step (origin path)

/-- The place of a file that is about to be written: its directory is there, the file itself need
not be. -/
def locate (tree : FileTree) (path : String) : Except FileError Place := do
  match pathFault? path with
  | some error => .error error
  | none =>
      let names := FilePath.names path
      let name := names.getLast?.getD ""
      let directory ← names.dropLast.foldlM tree.step (origin path)
      if FilePath.isHere name ∨ name = ".." then
        let _ ← tree.step directory name
        .error .isADirectory
      else
        tree.slot directory name

/-- What stands where a path leads to. -/
def stat (tree : FileTree) (path : String) : Except FileError FileNode := do
  let place ← tree.resolve path
  match tree.node? place with
  | some node => .ok node
  | none => .error .notFound

/-- Whether a path leads to anything. -/
def pathExists (tree : FileTree) (path : String) : Bool :=
  (tree.stat path).toOption.isSome

/-- Whether a path leads to a directory. -/
def isDirectory (tree : FileTree) (path : String) : Bool :=
  (tree.stat path).toOption = some .directory

/-! ### Contents -/

/-- The content with the given number; empty if there is none. -/
def content (tree : FileTree) (id : FileId) : FileContent :=
  tree.contents.getD id {}

/-- The length of what stands at a place. -/
def nodeSize (tree : FileTree) : FileNode → Nat
  | .file id => (tree.content id).size
  | .directory | .socket => 0

/-- The offset that no byte of a file can have, nor any offset behind it. -/
def maxFileSize : Nat := UInt64.size / 2 - 1

/-- Reads from an opened file. -/
def readAt (tree : FileTree) (id : FileId) (offset len : Nat) : Except FileError Bytes :=
  if maxFileSize < offset + len then
    .error .invalidOffset
  else
    .ok ((tree.content id).read offset len)

/-- Writes to an opened file, all of the data. -/
def writeAt (tree : FileTree) (id : FileId) (offset : Nat) (data : Bytes) :
    Except FileError FileTree :=
  if maxFileSize < offset + data.length then
    .error .invalidOffset
  else
    .ok { tree with contents := tree.contents.set id ((tree.content id).write offset data) }

/-- All bytes of the file that a path leads to. -/
def bytesOf (tree : FileTree) (path : String) : Except FileError Bytes := do
  match ← tree.stat path with
  | .file id => .ok (tree.content id).toBytes
  | .directory => .error .isADirectory
  | .socket => .error .noDevice

/-- The tree with a new file at a place where nothing stands. -/
def addFile (tree : FileTree) (names : List String) (content : FileContent) : FileTree where
  entries := (names, .file tree.contents.length) :: tree.entries
  contents := tree.contents ++ [content]

/-- Opens a file for reading and writing, and makes an empty one if there is none. -/
def openFile (tree : FileTree) (path : String) : Except FileError (FileId × FileTree) := do
  let place ← tree.locate path
  match tree.node? place, place with
  | some (.file id), _ => .ok (id, tree)
  | some .directory, _ => .error .isADirectory
  | some .socket, _ => .error .noDevice
  | none, .inside names => .ok (tree.contents.length, tree.addFile names {})
  | none, .outside => .error .notFound

/-- Replaces the content of a file, and makes the file if there is none. -/
def writeFile (tree : FileTree) (path : String) (data : Bytes) : Except FileError FileTree := do
  let (id, opened) ← tree.openFile path
  .ok { opened with contents := opened.contents.set id (.ofBytes data) }

/-! ### Failing writes

The operations above fail for what they are asked alone.  A device may fail as well, at any time and in
the middle of a write; what becomes of a write is its fate. -/

/-- What becomes of a write. -/
inductive WriteFate where
  /-- The device does not fail. -/
  | whole
  /-- Nothing is written, and nothing that was there is lost. -/
  | refused (error : FileError)
  /-- The first `taken` bytes are written before the failure. -/
  | cut (error : FileError) (taken : Nat)
deriving Repr, Inhabited, DecidableEq

/-- The tree after an operation on it, which is the old one if the operation fails. -/
def settle (tree : FileTree) : Except FileError FileTree → Except FileError Unit × FileTree
  | .ok changed => (.ok (), changed)
  | .error error => (.error error, tree)

/-- A write and its fate. -/
def writeAs (tree : FileTree) (write : Bytes → Except FileError FileTree) (data : Bytes) :
    WriteFate → Except FileError Unit × FileTree
  | .whole => tree.settle (write data)
  | .refused error => (.error error, tree)
  | .cut error taken => (.error error, (tree.settle (write (data.take taken))).2)

/-! ### Directories -/

/-- Goes into a directory by a name, and makes it if nothing of that name is there. -/
def enter (tree : FileTree) (place : Place) (name : String) :
    Except FileError (FileTree × Place) :=
  if name = ".." then
    .ok (tree, place.up)
  else do
    let found ← tree.slot place name
    match tree.node? found, found with
    | some .directory, _ => .ok (tree, found)
    | none, .inside names =>
        .ok ({ tree with entries := (names, .directory) :: tree.entries }, found)
    | _, _ => .error .notADirectory

/-- Goes into one directory after the other and makes those that are missing, up to the first
name for which that fails. -/
def enterAll (tree : FileTree) (place : Place) : List String → FileTree
  | [] => tree
  | name :: names =>
      match tree.enter place name with
      | .ok (tree', place') => enterAll tree' place' names
      | .error _ => tree

/-- Makes the directories of a path that are missing, from the outermost on.  A directory that is
named through a final dot has to be there already.  Directories made before a failure stay. -/
def makeDirectories (tree : FileTree) (path : String) : FileTree :=
  match pathFault? path with
  | some _ => tree
  | none =>
      let names := (FilePath.names path).filter (fun name => !FilePath.isHere name)
      tree.enterAll (origin path)
        (if FilePath.lastName? path = some "." then names.dropLast else names)

/-- Whether files can be made in a directory of the given path; the empty path stands for the
working directory. -/
def isUsableDirectory (tree : FileTree) (path : String) : Bool :=
  path.toList.isEmpty || tree.isDirectory path

/-- The entries of the directory that a path leads to, in ascending order of their names. -/
def list? (tree : FileTree) (path : String) : Option (List (String × FileNode)) :=
  match tree.resolve path with
  | .error _ => none
  | .ok place =>
      match tree.node? place, place with
      | some .directory, .inside names =>
          let children := tree.entries.filterMap fun (key, node) =>
            match key with
            | name :: parent => if parent = names then some (name, node) else none
            | [] => none
          some (children.mergeSort fun a b => a.1 ≤ b.1)
      | some .directory, .outside => some []
      | _, _ => none

/-- Whether the place of the second names is that of the first ones or lies below it. -/
def covers (names others : List String) : Bool :=
  names.isSuffixOf others && (names ≠ [] || others.getLast? ≠ some Place.rootName)

/-- Removes what a path leads to, with everything below it.  A directory that is named through a
final `.` or `..` loses all its entries, but stays. -/
def remove (tree : FileTree) (path : String) : FileTree :=
  match tree.resolve path with
  | .ok (.inside names) =>
      let stays := FilePath.lastName? path ∈ [some ".", some ".."]
      { tree with
        entries := tree.entries.filter fun entry =>
          !covers names entry.1 || (stays && entry.1 = names) }
  | _ => tree

/-- Writes a file and makes the directories that lead to it. -/
def putFile (tree : FileTree) (path : String) (data : Bytes) : FileTree :=
  let prepared := tree.makeDirectories (FilePath.parent path)
  (prepared.writeFile path data).toOption.getD prepared

/-- The longest path in bytes that the address of a socket can hold. -/
def maxSocketPathSize : Nat := 107

/-- Makes a socket, and the directories that lead to it. -/
def putSocket (tree : FileTree) (path : String) : FileTree :=
  let prepared := tree.makeDirectories (FilePath.parent path)
  match prepared.locate path with
  | .ok (.inside names) =>
      if maxSocketPathSize < path.utf8ByteSize ∨ (prepared.node? (.inside names)).isSome then
        prepared
      else
        { prepared with entries := (names, .socket) :: prepared.entries }
  | _ => prepared

end FileTree

end PspBoot
