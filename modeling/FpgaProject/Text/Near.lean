/-!
Texts that differ by a slip.

Two texts are near if one becomes the other by at most one edit: a character put in, left out or
replaced.
-/

namespace FpgaProject.Text

/-- Whether at most one edit makes the texts equal. -/
def isNear : List Char → List Char → Bool
  | [], t => t.length ≤ 1
  | s, [] => s.length ≤ 1
  | a :: s, b :: t =>
    if a = b then isNear s t else s = t || s = b :: t || a :: s = t

end FpgaProject.Text
