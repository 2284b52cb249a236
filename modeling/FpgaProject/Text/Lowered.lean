import FpgaProject.Text.Blank
import FpgaProject.Text.Bytes

/-!
Lowering the first letter of a message, so that it can stand inside another one.

A message keeps its first letter when it has no word, or when its first word is an acronym: more
than one byte long and without an ASCII lower-case letter.
-/

namespace FpgaProject.Text

/-- Whether a word stays as it is at the start of a message. -/
def isAcronym (word : List Char) : Bool :=
  1 < byteCount word && word.all (fun c => !c.isLower)

/-- Lowers the first character, if it is an ASCII upper-case letter. -/
def lowerHead : List Char → List Char
  | [] => []
  | c :: s => c.toLower :: s

/-- The form of a message inside another one. -/
def lowered (s : String) : String :=
  let word := firstWord s.toList
  if word.isEmpty || isAcronym word then s else String.ofList (lowerHead s.toList)

theorem length_lowerHead (s : List Char) : (lowerHead s).length = s.length := by
  cases s <;> rfl

end FpgaProject.Text
