/-!
What can go wrong with files and with starting a tool.
-/

namespace FpgaProject

/-- The reasons for which an operation on files, or the start of a tool, is refused. -/
inductive Fault where
  | notFound
  | notRunnable
  | denied
  | alreadyThere
  | notDirectory
  | isDirectory
  | nameTooLong
  | notText
  | emptyPath
  | nulInName
  | nulInArgument
deriving DecidableEq, Repr

namespace Fault

/-- The number that the system gives to a fault, if it is the system that refuses. -/
def number? : Fault → Option Nat
  | .notFound => some 2
  | .notRunnable => some 8
  | .denied => some 13
  | .alreadyThere => some 17
  | .notDirectory => some 20
  | .isDirectory => some 21
  | .nameTooLong => some 36
  | .notText | .emptyPath | .nulInName | .nulInArgument => none

def reason : Fault → String
  | .notFound => "No such file or directory"
  | .notRunnable => "Exec format error"
  | .denied => "Permission denied"
  | .alreadyThere => "File exists"
  | .notDirectory => "Not a directory"
  | .isDirectory => "Is a directory"
  | .nameTooLong => "File name too long"
  | .notText => "stream did not contain valid UTF-8"
  | .emptyPath => "cannot make an empty path absolute"
  | .nulInName => "file name contained an unexpected NUL byte"
  | .nulInArgument => "nul byte found in provided data"

/-- The message of a fault: the words, and the number if there is one. -/
def message (f : Fault) : String :=
  match f.number? with
  | some n => f.reason ++ " (os error " ++ toString n ++ ")"
  | none => f.reason

end Fault

end FpgaProject
