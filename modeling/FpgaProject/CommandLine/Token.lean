import FpgaProject.Text.Split

/-!
The tokens of a command line.

An argument with two dashes in front is a flag, one with a single dash stands for a switch per
letter, and either may have a value attached behind an equals sign. Two dashes alone end the flags:
all that follows is set aside. Anything else is a word, which knows how many arguments stand before
it.
-/

namespace FpgaProject.CommandLine

/-- What an argument, or a part of one, is. -/
inductive Token where
  | flag (name : String)
  | switch (letter : String)
  | attached (value : String)
  | word (s : String) (number : Nat)
  | terminator
  | aside (s : String)
deriving DecidableEq, Repr

namespace Token

def text : Token → String
  | .flag name => "--" ++ name
  | .switch letter => "-" ++ letter
  | .attached value => value
  | .word s _ => s
  | .terminator => "--"
  | .aside s => s

/-- The tokens for the value behind the first equals sign, if there is one. -/
def attachedTo (s : List Char) : List Token :=
  match s.dropWhile (· ≠ '=') with
  | [] => []
  | _ :: value => [.attached (String.ofList value)]

/-- What stands before the first equals sign. -/
def nameIn (s : List Char) : List Char :=
  s.takeWhile (· ≠ '=')

/-- The tokens of an argument with a single dash in front. -/
def switches (s : List Char) : List Token :=
  match nameIn s with
  | [] => [.switch ""]
  | letters => letters.map fun c => .switch (String.singleton c)

/-- The tokens of arguments, behind as many others as `number` says. -/
def ofArguments (number : Nat) : List String → List Token
  | [] => []
  | arg :: args =>
    match arg.toList with
    | '-' :: '-' :: s =>
      match nameIn s with
      | [] => .terminator :: attachedTo s ++ args.map .aside
      | name => .flag (String.ofList name) :: attachedTo s ++ ofArguments (number + 1) args
    | '-' :: s => switches s ++ attachedTo s ++ ofArguments (number + 1) args
    | _ => .word arg number :: ofArguments (number + 1) args

end Token

end FpgaProject.CommandLine
