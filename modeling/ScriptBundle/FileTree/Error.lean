/-!
# File Errors

Why a file or directory cannot be used.

## Main definitions

* `FileError`: the causes;
* `FileError.words`: what is said of a cause;
* `FileError.message`: the same with the number that the system gives it.
-/

namespace ScriptBundle

/-- The cause of a failed access to files. -/
inductive FileError where
  | notFound
  /-- A step of a path leads through something that is no directory. -/
  | notADirectory
  | isADirectory
  | alreadyExists
  | notEmpty
  | tooManyLinks
  | nameTooLong
  /-- A file that is no program is to be run, or a directory may not be listed. -/
  | permissionDenied
  /-- A word of a command holds a NUL character. -/
  | nulInCommand
  /-- A path holds a NUL character. -/
  | nulInPath
  /-- A file that is read as text is not UTF-8. -/
  | notText
  /-- The place where directories are looked for is something else. -/
  | notASourceDirectory
  deriving DecidableEq, Repr

namespace FileError

/-- The words of a cause. -/
def words : FileError → String
  | notFound => "No such file or directory"
  | notADirectory => "Not a directory"
  | isADirectory => "Is a directory"
  | alreadyExists => "File exists"
  | notEmpty => "Directory not empty"
  | tooManyLinks => "Too many levels of symbolic links"
  | nameTooLong => "File name too long"
  | permissionDenied => "Permission denied"
  | nulInCommand => "nul byte found in provided data"
  | nulInPath => "file name contained an unexpected NUL byte"
  | notText => "stream did not contain valid UTF-8"
  | notASourceDirectory => "not a directory"

/-- The number that the system gives a cause, unless the system never meets it. -/
def number? : FileError → Option Nat
  | notFound => some 2
  | permissionDenied => some 13
  | alreadyExists => some 17
  | notADirectory => some 20
  | isADirectory => some 21
  | nameTooLong => some 36
  | notEmpty => some 39
  | tooManyLinks => some 40
  | nulInCommand => none
  | nulInPath => none
  | notText => none
  | notASourceDirectory => none

/-- The words of a cause, with its number. -/
def message (e : FileError) : String :=
  match e.number? with
  | some n => e.words ++ " (os error " ++ toString n ++ ")"
  | none => e.words

end FileError

end ScriptBundle
