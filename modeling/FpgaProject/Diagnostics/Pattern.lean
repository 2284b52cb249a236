import FpgaProject.Text.Alphanumeric
import FpgaProject.Text.Blank
import FpgaProject.Text.Reader

/-!
Values that a filter may ask for.

A value is a number or a pattern for texts. Nothing that is reported has such a value, so what a
value stands for does not matter here, but a filter with one that is neither is refused.

A pattern has groups, alternatives, repetitions, classes in brackets and flags. What needs to be
told about characters beyond their order is not understood: the case of letters and the classes of
words, digits and blanks, unless a flag confines the pattern to ASCII; then again nothing is that
could stand for part of a character. Repetitions with a count end in a brace, which no value holds.
-/

namespace FpgaProject.Diagnostics

open Text Text.Reader

/-- How a stretch of a pattern is read: whether the case of letters is ignored, whether it is about
characters or about bytes, and whether blanks and comments may stand between its parts. -/
structure PatternMode where
  ignoresCase : Bool := false
  unicode : Bool := true
  extended : Bool := false
deriving DecidableEq, Repr

/-- What matters of a part of a pattern: how deep it is nested, the names of its groups, and whether
all of it is understood. -/
structure PatternShape where
  depth : Nat := 0
  names : List (List Char) := []
  understood : Bool := true
deriving DecidableEq, Repr

namespace PatternShape

/-- A part that is only understood under a condition. -/
def when (p : Bool) : PatternShape :=
  { understood := p }

def deeper (s : PatternShape) : PatternShape :=
  { s with depth := s.depth + 1 }

def beside (parts : List PatternShape) : PatternShape where
  depth := (parts.map depth).foldl max 0
  names := parts.flatMap names
  understood := parts.all understood

/-- What holds several parts, which is nothing of its own if there is only one. -/
def ofList (parts : List PatternShape) : PatternShape :=
  match parts with
  | [s] => s
  | [] => {}
  | parts => (beside parts).deeper

end PatternShape

namespace Pattern

/-- Blanks and comments between the parts of a pattern, if there may be any. -/
def gap (m : PatternMode) : Reader Unit := do
  if m.extended then
    let _ ← repeated (firstOf [
      (do let _ ← run1 isBlank),
      (do char '#'; let _ ← run (· ≠ '\n'))])

/-! ### Characters -/

/-- What stands behind a backslash: a character, whether it is only a byte, a place between
characters, or a class. -/
inductive Escape where
  | literal (c : Char) (byte : Bool)
  | place (understood : Bool)
  | properties (understood : Bool)
deriving DecidableEq, Repr

def charOfDigits? (digits : List Char) : Option Char :=
  let n := digits.foldl (fun n d => 16 * n + d.toLower.toNat - if d.isDigit then 48 else 87) 0
  if n.isValidChar then some (Char.ofNat n) else none

def hexDigits (m : PatternMode) : Nat → Reader (List Char)
  | 0 => pure []
  | n + 1 => do
    gap m
    let d ← satisfying fun c => c.isDigit || ('a' ≤ c.toLower && c.toLower ≤ 'f')
    pure (d :: (← hexDigits m n))

def numbered (m : PatternMode) (digits : Nat) : Reader Escape := do
  match charOfDigits? (← hexDigits m digits) with
  | some c =>
    gap m
    pure (.literal c (digits = 2))
  | none => refuse

/-- The control that a letter stands for behind a backslash. -/
def control? : Char → Option Char
  | 'a' => some '\x07'
  | 'f' => some '\x0c'
  | 'n' => some '\n'
  | 'r' => some '\r'
  | 't' => some '\t'
  | 'v' => some '\x0b'
  | _ => none

/-- A backslash with what stands behind it. -/
def escape (m : PatternMode) : Reader Escape := do
  char '\\'
  let c ← satisfying fun _ => true
  if c = 'x' then numbered m 2
  else if c = 'u' then numbered m 4
  else if c = 'U' then numbered m 8
  else if ['d', 's', 'w'].contains c then pure (.properties !m.unicode)
  else if ['D', 'S', 'W'].contains c then pure (.properties false)
  else if ['b', 'B', '<', '>'].contains c then pure (.place !m.unicode)
  else if ['A', 'z'].contains c then pure (.place true)
  else match control? c with
    | some control => pure (.literal control false)
    | none => if c.toNat < 0x80 && !c.isAlphanum then pure (.literal c false) else refuse

def isLiteralUnderstood (m : PatternMode) (c : Char) (byte : Bool) : Bool :=
  if m.unicode then !m.ignoresCase else !(byte && 0x80 ≤ c.toNat)

/-- The shape of what stands behind a backslash, outside a class. -/
def Escape.shape (m : PatternMode) : Escape → PatternShape
  | .literal c byte => .when (isLiteralUnderstood m c byte)
  | .place p => .when p
  | .properties p => .when p

/-! ### Classes -/

def asciiClasses : List String :=
  ["alnum", "alpha", "ascii", "blank", "cntrl", "digit", "graph", "lower", "print", "punct",
    "space", "upper", "word", "xdigit"]

def asciiClass (m : PatternMode) : Reader PatternShape := do
  chars ['[', ':']
  let negated := (← optional (char '^')).isSome
  let name ← run (· ≠ ':')
  chars [':', ']']
  if asciiClasses.contains (String.ofList name) then
    pure (.when (if m.unicode then !m.ignoresCase else !negated))
  else refuse

def isMemberUnderstood (m : PatternMode) (c : Char) : Bool :=
  if m.unicode then !m.ignoresCase else c.toNat < 0x80

/-- An end of a range within brackets: a character, or nothing for a class; and whether it is
understood. -/
def rangeEnd (m : PatternMode) : Reader (Option Char × Bool) := do
  match ← optional (escape m) with
  | some (.literal c _) => pure (some c, isMemberUnderstood m c)
  | some (.properties p) => pure (none, p)
  | some (.place _) => refuse
  | none =>
    let c ← satisfying fun c => c ≠ '\\'
    pure (some c, isMemberUnderstood m c)

/-- The character that is seen behind a hyphen: blanks and one hash are passed over where there may
be comments, and what a comment says is seen. -/
def seenBehind (m : PatternMode) (s : List Char) : Option Char :=
  if m.extended then
    let rest := s.dropWhile isBlank
    let rest := match rest with
      | '#' :: more => more.dropWhile isBlank
      | rest => rest
    rest.head?.or s.head?
  else s.head?

def setOperator : Reader Unit :=
  firstOf [chars ['&', '&'], chars ['-', '-'], chars ['~', '~']]

/-- A character, a class or a range within brackets. -/
def range (m : PatternMode) : Reader PatternShape := do
  if (← optional setOperator).isSome || (← peek?).any fun c => c = '[' || c = ']' then refuse
  let (first, understood) ← rangeEnd m
  gap m
  let dash ← optional (do
    char '-'
    if (seenBehind m (← ahead)).any fun c => c = ']' || c = '-' then refuse
    gap m)
  if dash.isNone then pure (.when understood)
  else
    match first, ← rangeEnd m with
    | some a, (some b, alsoUnderstood) =>
      if a ≤ b then pure (.when (understood && alsoUnderstood)) else refuse
    | _, _ => refuse

/-- A class in brackets, nested at most as deep as `fuel` says. A hyphen that comes first stands for
itself, and so does a closing bracket. -/
def bracketed (m : PatternMode) : Nat → Reader PatternShape
  | 0 => refuse
  | fuel + 1 => do
    let item : Reader PatternShape := do
      gap m
      firstOf [asciiClass m, bracketed m fuel, range m]
    char '['
    gap m
    let negated := (← optional (do char '^'; gap m)).isSome
    let hyphens ← repeated (do char '-'; gap m)
    let closing ← if hyphens = [] then optional (do char ']'; gap m) else pure none
    let first ← repeated item
    let others ← repeated (do
      gap m
      setOperator
      repeated item)
    gap m
    char ']'
    let signs := (hyphens ++ closing.toList).map fun _ => PatternShape.when (isMemberUnderstood m '-')
    let whole := (others.map PatternShape.ofList).foldl
      (fun before operand => (PatternShape.beside [before, operand]).deeper)
      (PatternShape.ofList (signs ++ first))
    pure (.beside [whole.deeper, .when (m.unicode || !negated)])

/-! ### Groups -/

/-- The mode behind flags, of which those after a hyphen are taken back. -/
def setFlags (m : PatternMode) (s : List Char) : PatternMode :=
  let on := s.takeWhile (· ≠ '-')
  let off := s.drop on.length
  let now (c : Char) (before : Bool) : Bool := (before || on.contains c) && !off.contains c
  ⟨now 'i' m.ignoresCase, now 'u' m.unicode, now 'x' m.extended⟩

/-- Flags: letters of which none comes twice, and at most one hyphen, not at the end. -/
def flags : Reader (List Char) := do
  let s ← run fun c => c ≠ ':' && c ≠ ')'
  if decide s.Nodup && s.all (['i', 'm', 's', 'U', 'u', 'R', 'x', '-'].contains ·) &&
      s.getLast? ≠ some '-' then
    pure s
  else refuse

def groupName : Reader (List Char) := do
  let first ← satisfying fun c => c = '_' || isAlphabetic c
  let rest ← run fun c => ['_', '.', '[', ']'].contains c || isAlphanumeric c
  char '>'
  pure (first :: rest)

/-- A sign that asks for a repetition of what stands in front of it. -/
def repetition (m : PatternMode) : Reader Unit := do
  gap m
  let _ ← satisfying fun c => c = '?' || c = '*' || c = '+'
  let _ ← optional (char '?')

/-- A part that may be repeated, in a mode; `group` reads what stands in a group. -/
def repeatable (group : PatternMode → Reader PatternShape) (m : PatternMode) :
    Reader PatternShape := do
  let rest ← ahead
  let plain ← firstOf [
    bracketed m rest.length,
    (do pure ((← escape m).shape m)),
    (do char '.'; pure (.when m.unicode)),
    (do let _ ← satisfying fun c => c = '^' || c = '$'; pure {}),
    (do
      let c ← satisfying fun c => !(['(', ')', '[', '|', '?', '*', '+', '\x7b', '\\'].contains c)
      pure (.when (isLiteralUnderstood m c false))),
    (do
      char '('
      gap m
      let inside ← firstOf [
        (do
          firstOf [chars ['?', 'P', '<'], chars ['?', '<']]
          let name ← groupName
          let s ← group m
          pure { s with names := name :: s.names }),
        (do
          char '?'
          let s ← flags
          char ':'
          group (setFlags m s)),
        (do
          if (← peek?) = some '?' then refuse
          group m)]
      char ')'
      pure inside.deeper)]
  let times ← repeated (repetition m)
  pure (times.foldl (fun s _ => s.deeper) plain)

/-- A part of a pattern, with the mode behind it. Flags by themselves change the mode. -/
def part (group : PatternMode → Reader PatternShape) (m : PatternMode) :
    Reader (PatternShape × PatternMode) := do
  gap m
  firstOf [
    (do
      char '('
      gap m
      char '?'
      let s ← flags
      char ')'
      if s = [] then refuse else pure ({}, setFlags m s)),
    (do pure (← repeatable group m, m))]

/-- Parts one after another, at most `fuel` of them, with the mode behind them. -/
def parts (group : PatternMode → Reader PatternShape) :
    Nat → PatternMode → Reader (List PatternShape × PatternMode)
  | 0, m => pure ([], m)
  | fuel + 1, m => do
    match ← optional (part group m) with
    | some (s, m) =>
      let (others, m) ← parts group fuel m
      pure (s :: others, m)
    | none =>
      gap m
      pure ([], m)

/-- Alternatives, at most `fuel` of them. The mode at the end of one is that of the next one. -/
def alternatives (group : PatternMode → Reader PatternShape) :
    Nat → PatternMode → Reader (List PatternShape)
  | 0, _ => refuse
  | fuel + 1, m => do
    let rest ← ahead
    let (inside, m) ← parts group rest.length m
    match ← optional (char '|') with
    | some _ => do pure (.ofList inside :: (← alternatives group fuel m))
    | none => pure [.ofList inside]

/-- A pattern with groups that are nested at most as deep as `fuel` says. -/
def whole : Nat → PatternMode → Reader PatternShape
  | 0, _ => refuse
  | fuel + 1, m => do
    let rest ← ahead
    pure (.ofList (← alternatives (whole fuel) (rest.length + 1) m))

def depthLimit : Nat := 250

end Pattern

def isPattern (s : List Char) : Bool :=
  match Pattern.whole (s.length + 1) {} ⟨s, 0⟩ with
  | some (shape, ⟨[], _⟩) =>
    shape.understood && decide shape.names.Nodup && shape.depth ≤ Pattern.depthLimit
  | _ => false

/-- A number without a sign, as far as its form goes. -/
def unsigned : Reader Unit := do
  let whole ← run Char.isDigit
  let fraction ← optional (do char '.'; run Char.isDigit)
  if whole = [] && fraction.all (· = []) then refuse
  let _ ← optional (do
    let _ ← satisfying fun c => c = 'e' || c = 'E'
    let _ ← optional (satisfying fun c => c = '+' || c = '-')
    run1 Char.isDigit)

/-- Whether a text is a number with a plus sign. Other numbers are patterns as well. -/
def isPositive : List Char → Bool
  | '+' :: s =>
    ["inf", "infinity", "nan"].contains (String.ofList (s.map Char.toLower)) ||
      match unsigned ⟨s, 0⟩ with
      | some (_, ⟨[], _⟩) => true
      | _ => false
  | _ => false

def isFieldValue (s : List Char) : Bool :=
  isPattern s || isPositive s

end FpgaProject.Diagnostics
