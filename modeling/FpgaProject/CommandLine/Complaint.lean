import FpgaProject.Error

/-!
What can be wrong with a command line.

A complaint can be coloured: what the help pages name stands in blue, what was given in yellow, and
what might help in green.
-/

namespace FpgaProject.CommandLine

/-- The ways in which a command line cannot be understood. Arguments are named as the help pages
name them. -/
inductive Complaint where
  | missingPositional (argument : String)
  | missingValue (argument : String)
  | repeated (argument : String)
  | unexpectedValue (flag value : String)
  | refusedValue (argument value reason : String)
  | leftOver (text : String)
  | similarArgument (text known : String)
  | unknownCommand (word argument : String)
  | similarCommand (word known : String)
  | misplaced (text command : String)
deriving DecidableEq, Repr

/-- A text in double quotes, in a colour if texts are coloured. -/
def emphasized (coloured : Bool) (code : String) (s : String) : String :=
  "\"" ++ (if coloured then highlighted code s else s) ++ "\""

def named (coloured : Bool) : String → String := emphasized coloured "34"

def given (coloured : Bool) : String → String := emphasized coloured "33"

def offered (coloured : Bool) : String → String := emphasized coloured "32"

def tip (coloured : Bool) : String :=
  "\n\nFor more information, try " ++ offered coloured "--help" ++ "."

/-- What is added where something else may have been meant. -/
def guess (coloured : Bool) (known : String) : String :=
  "\n\nDid you mean " ++ offered coloured known ++ "?"

def Complaint.message (coloured : Bool) : Complaint → String
  | .missingPositional argument =>
    "missing positional argument " ++ named coloured argument ++ tip coloured
  | .missingValue argument =>
    "option " ++ named coloured argument ++ " accepts one value but zero were supplied"
  | .repeated argument => "argument " ++ named coloured argument ++ " can only be supplied once"
  | .unexpectedValue flag value =>
    "flag " ++ named coloured flag ++ " cannot accept a value but was given " ++
      given coloured value
  | .refusedValue argument value reason =>
    "argument " ++ named coloured argument ++ " failed to process value " ++
      given coloured value ++ ": " ++ reason
  | .leftOver text => "invalid argument " ++ given coloured text ++ tip coloured
  | .similarArgument text known =>
    "invalid argument " ++ given coloured text ++ guess coloured known
  | .unknownCommand word argument =>
    "invalid subcommand " ++ given coloured word ++ " for " ++ named coloured argument
  | .similarCommand word known =>
    "invalid subcommand " ++ given coloured word ++ guess coloured known
  | .misplaced text command =>
    "argument " ++ given coloured text ++
      " is unknown or invalid in the current context\n\nMaybe move it after " ++
      offered coloured command ++ "?"

end FpgaProject.CommandLine
