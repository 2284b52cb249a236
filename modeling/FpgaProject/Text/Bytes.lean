/-!
The length of texts in UTF-8.

A text may be cut behind a number of bytes, but not within a character.
-/

namespace FpgaProject.Text

/-- The length of a text in UTF-8. -/
def byteCount : List Char → Nat
  | [] => 0
  | c :: s => c.utf8Size + byteCount s

/-- What is left of a text behind so many bytes, if a character ends there. -/
def dropBytes? : Nat → List Char → Option (List Char)
  | 0, s => some s
  | _, [] => none
  | n, c :: s => if n < c.utf8Size then none else dropBytes? (n - c.utf8Size) s

/-- The first bytes of a text, if a character ends behind them. -/
def takeBytes? : Nat → List Char → Option (List Char)
  | 0, _ => some []
  | _, [] => none
  | n, c :: s =>
    if n < c.utf8Size then none else (takeBytes? (n - c.utf8Size) s).map (c :: ·)

/-- The part of a text from one number of bytes to another one. -/
def cut? (first last : Nat) (s : List Char) : Option (List Char) :=
  (dropBytes? first s).bind (takeBytes? (last - first))

end FpgaProject.Text
