import FpgaProject.Shell.Source

/-!
Reading the words of scripts.

A word is read as a stretch of pieces. What ends a stretch and what a backslash hides depends on
where it stands: by itself, between double quotes, in braces behind a parameter, in a document or in
a number that is worked out.
-/

namespace FpgaProject.Shell

/-- The parameter that a character names, a digit or a sign. -/
def Parameter.ofChar? : Char → Option Parameter
  | '@' => some .arguments
  | '*' => some .line
  | '#' => some .count
  | '?' => some .status
  | '$' => some .process
  | '!' => some .background
  | c => if c.isDigit then some (.argument (c.toNat - '0'.toNat)) else none

/-- How a stretch of a word is read: as it stands, between double quotes, as the text of a document,
as a number that is worked out, or as the mark of a document. The first two may be within braces. -/
inductive Stretch where
  | bare (braced : Bool)
  | quotes (braced : Bool)
  | document
  | sum
  | mark
deriving DecidableEq, Repr

namespace Stretch

/-- Whether patterns and splitting are suspended. -/
def inQuotes : Stretch → Bool
  | .bare _ | .mark => false
  | .quotes _ | .document | .sum => true

/-- How the word behind a parameter in braces is read. -/
def within : Stretch → Stretch
  | .bare _ | .mark => .bare true
  | .quotes _ | .document | .sum => .quotes true

def piece (m : Stretch) (c : Char) : Piece :=
  if m.inQuotes then .quoted [c] else .plain [c]

def hides (m : Stretch) (c : Char) : Bool :=
  match m with
  | .bare _ | .mark => true
  | .quotes braced => ['\\', '\x60', '$', '"'].contains c || (braced && c = '}')
  | .document | .sum => ['\\', '\x60', '$'].contains c || (m = .sum && c = '"')

def endsAt (m : Stretch) (c : Char) : Bool :=
  match m with
  | .bare false | .mark => [' ', '\t', '\n', ';', '&', '|', '<', '>', '(', ')'].contains c
  | .bare true | .quotes true => c = '}'
  | .quotes false => c = '"'
  | .document | .sum => false

/-- The complaint if the script ends within a stretch, unless it may. -/
def unfinished : Stretch → Option String
  | .bare false | .mark | .document => none
  | .bare true => some "Missing '\x7d'"
  | .quotes _ => some "Unterminated quoted string"
  | .sum => some "Missing '))'"

end Stretch

/-- Joins pieces of text that stand side by side. -/
def Word.joined : Word → Word
  | .plain s :: .plain t :: w => Word.joined (.plain (s ++ t) :: w)
  | .quoted s :: .quoted t :: w => Word.joined (.quoted (s ++ t) :: w)
  | p :: w => p :: Word.joined w
  | [] => []
termination_by w => w.length

namespace Reading

/-- Reads what stands between single quotes, up to the second one. -/
def singleQuoted : Reading Piece :=
  loop ([] : List Char) fun taken => do
    match (← get).rest with
    | [] => fail "Unterminated quoted string"
    | '\'' :: _ =>
      skip
      pure (.inr (.quoted taken.reverse))
    | c :: _ =>
      skip
      pure (.inl (c :: taken))

/-- Reads the text of a command between backquotes, up to the second one. -/
def backquoted (inQuotes : Bool) : Reading (List Char) :=
  loop ([] : List Char) fun taken => do
    match ← peek? with
    | none => fail "EOF in backquote substitution"
    | some '\x60' =>
      skip
      pure (.inr taken.reverse)
    | some '\\' =>
      skip
      match (← get).rest.head? with
      | none => fail "EOF in backquote substitution"
      | some c =>
        skip
        let hidden := ['\\', '\x60', '$'].contains c || (inQuotes && c = '"')
        pure (.inl (if hidden then c :: taken else c :: '\\' :: taken))
    | some c =>
      skip
      pure (.inl (c :: taken))

/-- What is done with the value of a parameter in braces, up to the closing one; `word` reads the
word behind it. -/
def use (m : Stretch) (word : Stretch → Reading Word) : Reading Use := do
  let closing (u : Use) : Reading Use := do
    skip
    pure u
  match ← peek? with
  | some '}' => closing .itself
  | some '%' =>
    skip
    let longest ← accept '%'
    closing (.trim true longest (← word (.bare true)))
  | some '#' =>
    skip
    let longest ← accept '#'
    closing (.trim false longest (← word (.bare true)))
  | _ =>
    let nullToo ← accept ':'
    match ← peek? with
    | some '-' => skip; closing (.default nullToo (← word m.within))
    | some '=' => skip; closing (.assign nullToo (← word m.within))
    | some '?' => skip; closing (.demand nullToo (← word m.within))
    | some '+' => skip; closing (.replace nullToo (← word m.within))
    | _ => fail "Bad substitution"

def named? : Reading (Option Parameter) := do
  match ← peek? with
  | some c =>
    if isNameStart c then pure (some (.value (String.ofList (← run isNameChar))))
    else if c.isDigit then
      pure (some (.argument ((String.ofList (← run Char.isDigit)).toNat?.getD 0)))
    else pure none
  | none => pure none

def braced (m : Stretch) (word : Stretch → Reading Word) : Reading Piece := do
  let finish (p : Parameter) (u : Use) : Piece := .parameter p u m.inQuotes
  match ← named? with
  | some p => do pure (finish p (← use m word))
  | none =>
    match ← peek? with
    | some '#' =>
      skip
      match ← named? with
      | some p =>
        if !(← accept '\x7d') then fail "Bad substitution"
        pure (finish p .length)
      | none => do pure (finish .count (← use m word))
    | some c =>
      match Parameter.ofChar? c with
      | some p =>
        skip
        pure (finish p (← use m word))
      | none => fail "Bad substitution"
    | none => fail "Missing '\x7d'"

/-- What a dollar sign introduces, or the sign itself; `list` reads commands and `word` words. -/
def dollar (m : Stretch) (list : Reading Command) (word : Stretch → Reading Word) :
    Reading Piece := do
  skip
  match ← peek? with
  | some '(' =>
    skip
    if ← accept '(' then pure (.number (← word .sum) m.inQuotes)
    else pure (.output (← list) m.inQuotes)
  | some '{' =>
    skip
    braced m word
  | some c =>
    if isNameStart c then
      pure (.parameter (.value (String.ofList (← run isNameChar))) .itself m.inQuotes)
    else
      match Parameter.ofChar? c with
      | some p =>
        skip
        pure (.parameter p .itself m.inQuotes)
      | none => pure (m.piece '$')
  | none => pure (m.piece '$')

/-- A stretch of a word, nested at most as deep as `fuel` says; `list` reads a command up to a
closing bracket, and `listOf` reads one from a text. A number is read with the brackets behind
it. -/
def stretch (list : Reading Command) (listOf : List Char → Reading Command) :
    Nat → Stretch → Reading Word
  | 0, _ => fail "too deep"
  | fuel + 1, m =>
    let word := stretch list listOf fuel
    loop (([], 0, false) : List Piece × Nat × Bool) fun (taken, open_, toggled) => do
      let go (p : Piece) : Reading ((List Piece × Nat × Bool) ⊕ Word) :=
        pure (.inl (p :: taken, open_, toggled))
      let whole : Word := Word.joined taken.reverse
      match ← peek? with
      | none =>
        match m.unfinished with
        | some reason => fail reason
        | none => pure (.inr whole)
      | some c =>
        if m.endsAt c && !toggled then pure (.inr whole)
        else if c = '\\' then
          skip
          match (← get).rest.head? with
          | none => go (.quoted ['\\'])
          | some d =>
            skip
            go (.quoted (if m.hides d then [d] else ['\\', d]))
        else if c = '$' && m ≠ .mark then go (← dollar m list word)
        else if c = '\x60' && m ≠ .mark then
          skip
          go (.output (← listOf (← backquoted m.inQuotes)) m.inQuotes)
        else
          match m with
          | .bare _ | .mark =>
            if c = '\'' then
              skip
              go (← singleQuoted)
            else if c = '"' then
              skip
              let inside ← if m = .mark then do
                  pure [Piece.quoted (← run (· ≠ '"'))]
                else word (.quotes false)
              if !(← accept '"') then fail "Unterminated quoted string"
              let whole := match inside with
                | [.parameter .arguments .itself _] => inside
                | _ => .quoted [] :: inside
              pure (.inl (whole.reverse ++ taken, open_, toggled))
            else
              skip
              go (.plain [c])
          | .quotes true =>
            skip
            if c = '"' then pure (.inl (taken, open_, !toggled)) else go (.quoted [c])
          | .quotes false | .document =>
            skip
            go (.quoted [c])
          | .sum =>
            skip
            if c = '(' then pure (.inl (.quoted [c] :: taken, open_ + 1, toggled))
            else if c = ')' then
              if 0 < open_ then pure (.inl (.quoted [c] :: taken, open_ - 1, toggled))
              else if ← accept ')' then pure (.inr whole)
              else go (.quoted [c])
            else go (.quoted [c])

end Reading

end FpgaProject.Shell
