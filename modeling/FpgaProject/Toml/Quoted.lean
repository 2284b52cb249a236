import FpgaProject.Toml.Spacing

/-!
Texts in quotes.

There are four forms: with escapes between `"`, as it is between `'`, and each of these over several
lines between three quotes. In the long forms a line end right after the opening is left out, a
carriage return before a line feed is too, and one or two quotes may stand in the text, also just
before the closing ones.
-/

namespace FpgaProject.Toml

open Text Text.Reader

def isBasicChar (c : Char) : Bool :=
  isCommentChar c && c ≠ '"' && c ≠ '\\'

/-- A character of a text without escapes. -/
def isLiteralChar (c : Char) : Bool :=
  isCommentChar c && c ≠ '\''

def hexValue (c : Char) : Nat :=
  if c.isDigit then c.toNat - '0'.toNat
  else c.toLower.toNat - 'a'.toNat + 10

def isHexDigit (c : Char) : Bool :=
  c.isDigit || ('a' ≤ c.toLower && c.toLower ≤ 'f')

def numberOf (base : Nat) (digits : List Char) : Nat :=
  digits.foldl (fun n c => n * base + hexValue c) 0

def numberedChar (count : Nat) : Reader Char := do
  let n := numberOf 16 (← exactly isHexDigit count)
  if h : n.isValidChar then pure (Char.ofNatAux n h) else refuse

/-- What a backslash introduces. -/
def escape : Reader Char := do
  match ← satisfying (fun _ => true) with
  | 'b' => pure '\x08'
  | 't' => pure '\t'
  | 'n' => pure '\n'
  | 'f' => pure '\x0c'
  | 'r' => pure '\r'
  | '"' => pure '"'
  | '\\' => pure '\\'
  | 'u' => numberedChar 4
  | 'U' => numberedChar 8
  | _ => refuse

def basicChar : Reader Char :=
  firstOf [satisfying isBasicChar, (do char '\\'; escape)]

def basicText : Reader (List Char) := do
  char '"'
  let s ← repeated basicChar
  char '"'
  pure s

def literalText : Reader (List Char) := do
  char '\''
  let s ← run isLiteralChar
  char '\''
  pure s

/-- How many times a character stands at the front of a text. -/
def countFront (x : Char) (s : List Char) : Nat :=
  (s.takeWhile (· = x)).length

def innerLineEnd : Reader (List Char) := do
  lineEnd
  pure ['\n']

def innerQuotes (quote : Char) : Reader (List Char) := do
  if countFront quote (← ahead) < 3 then
    char quote
    pure [quote]
  else refuse

/-- A backslash at the end of a line, which leaves out all blanks and line ends after it. -/
def joinedLine : Reader (List Char) := do
  char '\\'
  spaces
  lineEnd
  let _ ← repeated (firstOf [(do let _ ← run1 isSpace), lineEnd])
  pure []

/-- The closing quotes, and the quotes of the text just before them. -/
def closing (quote : Char) : Reader (List Char) := do
  let n := countFront quote (← ahead)
  if n < 3 then refuse
  else
    let taken := min n 5
    chars (List.replicate taken quote)
    pure (List.replicate (taken - 3) quote)

def longText (quote : Char) (parts : List (Reader (List Char))) : Reader (List Char) := do
  chars [quote, quote, quote]
  let _ ← optional lineEnd
  let s ← repeated (firstOf (parts ++ [innerLineEnd, innerQuotes quote]))
  let last ← closing quote
  pure (s.flatten ++ last)

def longBasicText : Reader (List Char) :=
  longText '"' [joinedLine, (do pure [← basicChar])]

/-- A text without escapes over several lines. -/
def longLiteralText : Reader (List Char) :=
  longText '\'' [(do pure [← satisfying isLiteralChar])]

/-- A text in quotes of any form; three quotes always open the long one. -/
def quotedText : Reader (List Char) := do
  match ← ahead with
  | '"' :: '"' :: '"' :: _ => longBasicText
  | '"' :: _ => basicText
  | '\'' :: '\'' :: '\'' :: _ => longLiteralText
  | '\'' :: _ => literalText
  | _ => refuse

end FpgaProject.Toml
