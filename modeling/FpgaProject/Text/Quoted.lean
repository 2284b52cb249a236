import FpgaProject.Text.Unshown

/-!
Quoted text, the form in which messages name paths and texts.

The text stands between double quotes. A quote and a backslash get a backslash, four controls have
short forms, every other character that is not shown is written by its number in hexadecimal, and
the rest stands as it is.
-/

namespace FpgaProject.Text

def byNumber (c : Char) : List Char :=
  ['\\', 'u', '\x7b'] ++ Nat.toDigits 16 c.toNat ++ ['\x7d']

/-- The written form of one character inside quotes. -/
def escaped (c : Char) : List Char :=
  if c = '"' then ['\\', '"']
  else if c = '\\' then ['\\', '\\']
  else if c = '\t' then ['\\', 't']
  else if c = '\r' then ['\\', 'r']
  else if c = '\n' then ['\\', 'n']
  else if c = '\x00' then ['\\', '0']
  else if isUnshown c then byNumber c
  else [c]

def quoted (s : String) : String :=
  String.ofList ('"' :: s.toList.flatMap escaped ++ ['"'])

end FpgaProject.Text
