import CallAtlas.Error
import CallAtlas.Numeral

/-!
# Failures

Whatever can stop an operation: errors of the analysis, numbers that cannot be
read, files that are not what they should be, and integers that do not fit a
store.
-/

namespace CallAtlas

/-- What can be wrong with a file. -/
inductive FileError
  /-- There is nothing on the way to a path. -/
  | missing (path : String)
  /-- A folder should be made where a file is. -/
  | occupied (path : String)
  /-- A path leads through a file. -/
  | notFolder (path : String)
  /-- A folder should be read, written or removed as a file. -/
  | isFolder (path : String)
  /-- A name on a path, or the path itself, is longer than names may be. -/
  | nameTooLong (path : String)
  /-- A path has a null character, which no name has. -/
  | nullInPath
deriving Repr, DecidableEq

/-- The number by which systems know a file error, what they say about it, and its path. -/
def FileError.parts? : FileError → Option (Nat × String × String)
  | missing path => some (2, "No such file or directory", path)
  | occupied path => some (17, "File exists", path)
  | notFolder path => some (20, "Not a directory", path)
  | isFolder path => some (21, "Is a directory", path)
  | nameTooLong path => some (36, "File name too long", path)
  | nullInPath => none

/-- The wording of a file error. -/
def FileError.message (e : FileError) : String :=
  match e.parts? with
  | some (number, description, path) =>
    "[Errno " ++ toString number ++ "] " ++ description ++ ": " ++
      String.ofList (Text.quoted path.toList)
  | none => "embedded null byte"

/-- Why an operation stopped. -/
inductive Failure
  | analysis (cause : AnalysisError)
  | numeral (cause : NumeralError)
  | file (cause : FileError)
  /-- An integer does not fit the 64 bits of a store. -/
  | integerTooLarge
deriving Repr

/-- The wording of a failure. -/
def Failure.message : Failure → String
  | analysis cause => cause.text
  | numeral cause => cause.message
  | file cause => cause.message
  | integerTooLarge => "Python int too large to convert to SQLite INTEGER"

end CallAtlas
