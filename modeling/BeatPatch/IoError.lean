/-!
# Errors of a file system

Why a file cannot be read or written, and the text that tells it: the description of the
system with its number, or a description alone where the system was not asked.
-/

namespace BeatPatch

/-- Why a file cannot be read or written. -/
inductive IoError where
  /-- There is nothing at the path, or a directory on the way is missing. -/
  | notFound
  /-- A file stands where the path needs a directory. -/
  | notDirectory
  /-- A directory stands where the path needs a file. -/
  | isDirectory
  /-- The path or one of its parts is longer than the system allows. -/
  | nameTooLong
  /-- The path has a null character, with which no path can be handed to the system. -/
  | nullInPath
  /-- Anything else, in the words of the system. -/
  | other (description : String)
deriving DecidableEq, Repr

/-- The text of an error. -/
def IoError.message : IoError → String
  | .notFound => "No such file or directory (os error 2)"
  | .notDirectory => "Not a directory (os error 20)"
  | .isDirectory => "Is a directory (os error 21)"
  | .nameTooLong => "File name too long (os error 36)"
  | .nullInPath => "file name contained an unexpected NUL byte"
  | .other description => description

end BeatPatch
