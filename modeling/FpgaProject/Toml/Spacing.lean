import FpgaProject.Text.Reader
import FpgaProject.Toml.Item

/-!
What stands between the items of a document: blanks, comments and line ends.
-/

namespace FpgaProject.Toml

open Text Text.Reader

def spanned {α : Type} (r : Reader α) : Reader (α × Span) := do
  let start ← position
  let a ← r
  let stop ← position
  pure (a, ⟨start, stop⟩)

def isSpace (c : Char) : Bool :=
  c = ' ' || c = '\t'

/-- A character that may stand in a comment: no control but the tab. -/
def isCommentChar (c : Char) : Bool :=
  c = '\t' || (0x20 ≤ c.toNat && c.toNat ≠ 0x7F)

def spaces : Reader Unit := do
  let _ ← run isSpace

/-- The end of a line: a line feed, or a carriage return and a line feed. -/
def lineEnd : Reader Unit :=
  firstOf [char '\n', chars ['\r', '\n']]

def comment : Reader Unit := do
  char '#'
  let _ ← run isCommentChar

def lineEndOrTextEnd : Reader Unit := do
  if ← atEnd then pure () else lineEnd

def restOfLine : Reader Unit := do
  spaces
  let _ ← optional comment
  lineEndOrTextEnd

def gap : Reader Unit := do
  let _ ← repeated (firstOf [
    (do let _ ← run1 isSpace),
    lineEnd,
    (do comment; lineEnd)])

end FpgaProject.Toml
