import PspBoot.Text.Search

/-!
# Locators

A locator names a candidate game image: a path, and a scheme that says how the path is to be
opened.  Everything else about a locator is read off its path.  Both `/` and `\` separate the
components of a path, whatever the scheme.

The operations on paths work on character lists (`Path`); those on `Locator` wrap them.
-/

namespace PspBoot

/-- How the path of a locator is opened. -/
inductive Scheme where
  /-- A path in the file system of this machine. -/
  | localFile
  /-- An address that starts with `http://` or `https://`. -/
  | network
  /-- A path that belongs to the factory registered under the given mark. -/
  | custom (mark : String)
deriving Repr, Inhabited, DecidableEq

namespace Path

/-- Whether a character separates path components. -/
def isSeparator (c : Char) : Bool :=
  c == '/' || c == '\\'

/-- The path without its trailing separators; a path of separators alone keeps its first. -/
def trimmed (path : List Char) : List Char :=
  match Text.trimEnd isSeparator path with
  | [] => path.take 1
  | kept => kept

/-- The last component, not counting trailing separators. -/
def filename (path : List Char) : List Char :=
  match Text.splitLast isSeparator (trimmed path) with
  | some (_, name) => name
  | none => trimmed path

/-- The last dot of the file name and what follows it, in ASCII lower case.  A name whose only
dot comes first has no extension. -/
def extension (path : List Char) : List Char :=
  match Text.splitLast (· == '.') (filename path) with
  | none | some ([], _) => []
  | some (_, ending) => '.' :: ending.map Char.toLower

/-- The path in front of the last component.  The separator is kept only where it is the whole
path that remains, and a path of one component is its own parent. -/
def parent (path : List Char) : List Char :=
  match Text.splitLast isSeparator (trimmed path) with
  | none => trimmed path
  | some ([], _) => (trimmed path).take 1
  | some (directory, _) => directory

/-- The path of `child` inside `path`. -/
def join (path child : List Char) : List Char :=
  match (trimmed path).getLast? with
  | none => child
  | some c => if isSeparator c then trimmed path ++ child else trimmed path ++ '/' :: child

/-- The path with every separator written as `/`. -/
def normalized (path : List Char) : List Char :=
  path.map fun c => if c == '\\' then '/' else c

end Path

/-- A path together with the way to open it. -/
structure Locator where
  scheme : Scheme
  path : String
deriving Repr, Inhabited, DecidableEq

namespace Locator

/-- The file name that marks a directory as an installed game. -/
def ebootName : String := "EBOOT.PBP"

/-- Whether a path is a network address.  The case of the address's scheme does not matter. -/
def isNetworkAddress (path : String) : Bool :=
  let lower := path.toList.map Char.toLower
  "http://".toList.isPrefixOf lower || "https://".toList.isPrefixOf lower

/-- The locator that a path entered by a user stands for. -/
def ofPath (path : String) : Locator where
  scheme := if isNetworkAddress path then .network else .localFile
  path := path

/-- Whether this locator is opened through the network. -/
def isNetwork (locator : Locator) : Bool :=
  locator.scheme = .network

/-- Length of the path in bytes of UTF-8. -/
def size (locator : Locator) : Nat :=
  locator.path.utf8ByteSize

/-- Whether the path is the empty text. -/
def isEmpty (locator : Locator) : Bool :=
  locator.path.toList.isEmpty

/-- Whether the path, exactly as written, starts with `beginning`. -/
def startsWith (locator : Locator) (beginning : String) : Bool :=
  beginning.toList.isPrefixOf locator.path.toList

/-- The path with every separator written as `/`. -/
def normalized (locator : Locator) : String :=
  String.ofList (Path.normalized locator.path.toList)

/-- Whether the normalized path contains `needle`. -/
def contains (locator : Locator) (needle : String) : Bool :=
  Text.occursIn needle.toList (Path.normalized locator.path.toList)

/-- The last component of the path. -/
def filename (locator : Locator) : String :=
  String.ofList (Path.filename locator.path.toList)

/-- The extension of the file name with its dot, in lower case; empty if there is none. -/
def extension (locator : Locator) : String :=
  String.ofList (Path.extension locator.path.toList)

/-- The locator of the directory that contains this one, under the same scheme. -/
def parent (locator : Locator) : Locator :=
  { locator with path := String.ofList (Path.parent locator.path.toList) }

/-- The path of the directory that contains this locator. -/
def directory (locator : Locator) : String :=
  locator.parent.path

/-- The locator of `child` inside this one, under the same scheme. -/
def join (locator : Locator) (child : String) : Locator :=
  { locator with path := String.ofList (Path.join locator.path.toList child.toList) }

/-- The game directory of an executable container: the parent of a locator that names one, and
any other locator itself. -/
def gameDirectory (locator : Locator) : Locator :=
  if locator.filename = ebootName then locator.parent else locator

/-- The executable container of a game directory: a locator that names one already, and
otherwise the file of that name inside it. -/
def gameFile (locator : Locator) : Locator :=
  if locator.filename = ebootName then locator else locator.join ebootName

@[simp] theorem scheme_parent (locator : Locator) : locator.parent.scheme = locator.scheme := rfl

@[simp] theorem scheme_join (locator : Locator) (child : String) :
    (locator.join child).scheme = locator.scheme := rfl

end Locator

end PspBoot
