/-!
Natural numbers written in decimal.

A plus sign may stand in front. The digits are read from left to right, and the first thing that is
wrong is reported: a character that is no digit, or a value that does not fit a word.
-/

namespace FpgaProject.Text

inductive NumberFault where
  | empty
  | invalidDigit
  | tooLarge
deriving DecidableEq, Repr

def NumberFault.message : NumberFault → String
  | .empty => "cannot parse integer from empty string"
  | .invalidDigit => "invalid digit found in string"
  | .tooLarge => "number too large to fit in target type"

/-- Numbers are less than this. -/
def wordLimit : Nat := 18446744073709551616

def readDigits : Nat → List Char → Except NumberFault Nat
  | n, [] => .ok n
  | n, c :: s =>
    if c.isDigit then
      let n := 10 * n + (c.toNat - '0'.toNat)
      if n < wordLimit then readDigits n s else .error .tooLarge
    else .error .invalidDigit

def readNatural (s : String) : Except NumberFault Nat :=
  match s.toList with
  | [] => .error .empty
  | ['+'] => .error .invalidDigit
  | '+' :: digits => readDigits 0 digits
  | digits => readDigits 0 digits

end FpgaProject.Text
