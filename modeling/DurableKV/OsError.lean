/-!
# Failures of the operating system

The ways in which an operation on a file or directory fails, with the system's wording.
-/

namespace DurableKV

/-- Why an operation on a file or directory failed. -/
inductive OsError where
  /-- Nothing stands at the path. -/
  | notFound
  /-- Something stands there already. -/
  | alreadyExists
  /-- A part of the path is no directory. -/
  | notDirectory
  /-- A directory stands there. -/
  | isDirectory
  /-- The operation makes no sense for this file. -/
  | invalidArgument
  /-- The file may not grow further. -/
  | fileTooLarge
  /-- The path holds the zero character. -/
  | zeroInPath
  /-- The content of a text file is not UTF-8. -/
  | notUtf8
  /-- Any other failure, with its wording. -/
  | other (text : String)
  deriving DecidableEq, Repr

namespace OsError

/-- The wording of a failure. -/
def message : OsError → String
  | notFound => "No such file or directory (os error 2)"
  | alreadyExists => "File exists (os error 17)"
  | notDirectory => "Not a directory (os error 20)"
  | isDirectory => "Is a directory (os error 21)"
  | invalidArgument => "Invalid argument (os error 22)"
  | fileTooLarge => "File too large (os error 27)"
  | zeroInPath => "file name contained an unexpected NUL byte"
  | notUtf8 => "stream did not contain valid UTF-8"
  | other text => text

end OsError

end DurableKV
