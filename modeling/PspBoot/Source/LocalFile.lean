import PspBoot.Checked
import PspBoot.Source.Basic
import PspBoot.Storage.FileTree

/-!
# Files as sources

A local source looks at its path once, when it is opened: whether something is there, whether it
is a directory, and how large it is.  A file is opened at the same time, and all reads go to the
content opened then, even if the file has been removed or written anew meanwhile.  A path with
nothing behind it is no failure, but a file that cannot be opened is.
-/

namespace PspBoot

/-- What a local source found at its path when it was opened. -/
structure LocalFile where
  present : Bool := false
  directory : Bool := false
  size : Nat := 0
  /-- The content of the file, if one was opened. -/
  content : Option FileId := none
  failures : FailureLog := {}
deriving Repr, Inhabited, DecidableEq

namespace LocalFile

/-- Looks at a path and opens the file that is there. -/
def look (files : FileTree) (path : String) : LocalFile :=
  match files.stat path with
  | .error _ => {}
  | .ok .directory => { present := true, directory := true }
  | .ok (.file id) => { present := true, size := (files.content id).size, content := some id }
  | .ok .socket =>
      { present := true
        failures := ({} : FailureLog).record
          ("failed to open " ++ path ++ ": " ++ FileError.noDevice.message) }

/-- The bytes of the opened content; none behind the size found when it was opened. -/
def readAt (file : LocalFile) (files : FileTree) (offset len : Nat) : Bytes :=
  match file.content with
  | none => []
  | some id =>
      if file.size ≤ offset ∨ len = 0 then [] else (files.content id).read offset len

/-- `readAt` with every step checked.  A buffer is made for all that is asked for, however much of it
there is. -/
def readAtChecked (file : LocalFile) : CheckedRead FileTree :=
  fun offset len => do
    if file.content.isSome ∧ offset < file.size then
      Checked.reserve len
    let files ← Checked.lift get
    pure (file.readAt files offset len)

end LocalFile

/-- What was found at a path, as a source on the files. -/
def Source.localFile (locator : Locator) (file : LocalFile) : Source FileTree where
  locator := locator
  isPresent := pure file.present
  isDirectory := pure file.directory
  size := pure file.size
  readAt offset len := do pure (file.readAt (← get) offset len)
  lastFailure := pure file.failures.latest
  failureCount := pure file.failures.count
  hasEntry name := do
    pure (file.directory && (← get).pathExists (FilePath.join locator.path name))

end PspBoot
