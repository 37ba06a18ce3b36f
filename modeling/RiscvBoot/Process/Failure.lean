/-!
# What the system refuses

Why a file cannot be used or a program cannot be started, with the wording of the system.
-/

set_option autoImplicit false

namespace RiscvBoot

inductive SystemError where
  | notFound
  | permissionDenied
  | alreadyThere
  | notADirectory
  | isADirectory
  /-- A name in a path, or the path as a whole, is too long. -/
  | nameTooLong
  | argumentTooLong
  /-- A file that may be run holds no program. -/
  | notAProgram
  /-- Too many files name another one to run them. -/
  | tooManyInterpreters
  /-- A zero character in the name, an argument or the directory of a program. -/
  | nulInData
  /-- A zero character in the name of a file. -/
  | nulInName
  | notText
  /-- Any other reason, in the system's words. -/
  | other (message : String)
  deriving DecidableEq, Repr

def SystemError.message : SystemError → String
  | .notFound => "No such file or directory (os error 2)"
  | .permissionDenied => "Permission denied (os error 13)"
  | .alreadyThere => "File exists (os error 17)"
  | .notADirectory => "Not a directory (os error 20)"
  | .isADirectory => "Is a directory (os error 21)"
  | .nameTooLong => "File name too long (os error 36)"
  | .argumentTooLong => "Argument list too long (os error 7)"
  | .notAProgram => "Exec format error (os error 8)"
  | .tooManyInterpreters => "Too many levels of symbolic links (os error 40)"
  | .nulInData => "nul byte found in provided data"
  | .nulInName => "file name contained an unexpected NUL byte"
  | .notText => "stream did not contain valid UTF-8"
  | .other message => message

end RiscvBoot
