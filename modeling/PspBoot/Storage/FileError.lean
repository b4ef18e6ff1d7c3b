/-!
# Failures of file operations

The causes for which a file operation is refused.  Every cause but one has a number assigned by
the operating system, which its text shows.
-/

namespace PspBoot

/-- Why a file operation is refused. -/
inductive FileError where
  | notFound
  | notADirectory
  | isADirectory
  | nameTooLong
  /-- There is nothing behind the name that could be opened, as with a socket. -/
  | noDevice
  /-- An offset that no file can have. -/
  | invalidOffset
  | noSpace
  /-- A path that contains a NUL character. -/
  | nulInPath
deriving Repr, Inhabited, DecidableEq

/-- The text of a failure. -/
def FileError.message : FileError → String
  | .notFound => "No such file or directory (os error 2)"
  | .notADirectory => "Not a directory (os error 20)"
  | .isADirectory => "Is a directory (os error 21)"
  | .nameTooLong => "File name too long (os error 36)"
  | .noDevice => "No such device or address (os error 6)"
  | .invalidOffset => "Invalid argument (os error 22)"
  | .noSpace => "No space left on device (os error 28)"
  | .nulInPath => "file name contained an unexpected NUL byte"

end PspBoot
