import PspBoot.Text.Search

/-!
# Paths of files

A path is a sequence of names separated by `/`; no other character has a meaning in it.  An empty
name stands for the directory reached so far, as `.` does.  Paths are joined as texts, and two
paths are the same key if they differ only in such names.
-/

namespace PspBoot.FilePath

/-- Whether the path starts at the root of the file system. -/
def isAbsolute (path : String) : Bool :=
  path.toList.head? = some '/'

/-- The names of a path in order, with an empty name wherever two separators meet or one stands
at an end. -/
def names (path : String) : List String :=
  (Text.splitAt '/' path.toList).map String.ofList

/-- The path of `child` as seen from `base`.  An absolute child replaces the base. -/
def join (base child : String) : String :=
  if isAbsolute child then
    child
  else
    match base.toList.getLast? with
    | none => child
    | some c => if c = '/' then base ++ child else base ++ "/" ++ child

/-- Whether a name leaves the directory that has been reached. -/
def isHere (name : String) : Bool :=
  name = "" || name = "."

/-- The last name that is written out in a path. -/
def lastName? (path : String) : Option String :=
  ((names path).filter (· ≠ "")).getLast?

/-- The path of the directory in which the thing that a path names stands.  The last name goes, and
with it the empty names and dots on both of its sides. -/
def parent (path : String) : String :=
  let backwards := (names path).reverse.dropWhile isHere
  "/".intercalate (backwards.tail.dropWhile isHere).reverse

/-- What identifies a path: whether it is absolute, and its names without those that stand for the
directory reached so far.  A dot at the beginning of a relative path counts as a name. -/
structure Key where
  absolute : Bool
  names : List String
deriving Repr, Inhabited, DecidableEq

/-- The key of a path. -/
def key (path : String) : Key where
  absolute := isAbsolute path
  names :=
    (if (names path).head? = some "." then ["."] else []) ++
      (names path).filter (fun name => !isHere name)

end PspBoot.FilePath
