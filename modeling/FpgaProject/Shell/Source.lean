import FpgaProject.Shell.Command

/-!
Shell scripts that are being read.

What is left of a script is kept with the number of the line that has been reached, so that a
complaint can name it. The text of a document in a script stands behind the line that asks for it;
documents are numbered in the order in which they are asked for.
-/

namespace FpgaProject.Shell

structure Misreading where
  line : Nat
  reason : String
deriving DecidableEq, Repr

/-- A redirection up to its word. A document is either taken as it is, or without leading tabs. -/
inductive Opening where
  | leading (way : Leading)
  | document (withoutTabs : Bool)
deriving DecidableEq, Repr

inductive Token where
  | word (w : Word)
  | keyword (name : String)
  | sign (text : String)
  | redirection (channel : Option Nat) (o : Opening)
  | newline
  | fin

def Token.label : Token → String
  | .word _ => "word"
  | .keyword name => "\"" ++ name ++ "\""
  | .sign text => "\"" ++ text ++ "\""
  | .redirection .. => "redirection"
  | .newline => "newline"
  | .fin => "end of file"

/-- A document whose text has not been read yet: its number and how its end is marked. -/
structure AwaitedDocument where
  number : Nat
  mark : List Char
  withoutTabs : Bool
  literal : Bool
deriving DecidableEq, Repr

/-- A script that is being read: what is left, the number of its line, a token that has been put
back, how many documents have been asked for, those whose text stands behind the line, and those
that have been read, by their numbers. -/
structure Source where
  rest : List Char
  line : Nat := 1
  kept : Option Token := none
  asked : Nat := 0
  awaited : List AwaitedDocument := []
  documents : List (Nat × Word) := []

abbrev Reading := StateT Source (Except Misreading)

namespace Reading

def fail {α : Type} (reason : String) : Reading α := do
  throw ⟨(← get).line, reason⟩

/-- Repeats a step until it gives a result, at most as often as there are characters left. -/
def iterate {α β : Type} (step : α → Reading (α ⊕ β)) : Nat → α → Reading β
  | 0, _ => fail "too long"
  | fuel + 1, a => do
    match ← step a with
    | .inl a => iterate step fuel a
    | .inr b => pure b

/-- Repeats a step until it gives a result. -/
def loop {α β : Type} (a : α) (step : α → Reading (α ⊕ β)) : Reading β := do
  iterate step ((← get).rest.length + 3) a

/-! ### Characters -/

/-- What is left behind line ends that are hidden by a backslash, and their number. -/
def unfolded : List Char → List Char × Nat
  | '\\' :: '\n' :: rest =>
    let (rest, n) := unfolded rest
    (rest, n + 1)
  | rest => (rest, 0)

/-- Takes line ends that are hidden by a backslash. -/
def unfold : Reading Unit :=
  modify fun s =>
    let (rest, n) := unfolded s.rest
    { s with rest := rest, line := s.line + n }

/-- The next character. Line ends that are hidden by a backslash are none. -/
def peek? : Reading (Option Char) := do
  unfold
  pure (← get).rest.head?

def skip : Reading Unit :=
  modify fun s =>
    { s with rest := s.rest.tail, line := if s.rest.head? = some '\n' then s.line + 1 else s.line }

/-- Takes a character if it is the given one. -/
def accept (c : Char) : Reading Bool := do
  if (← peek?) = some c then
    skip
    pure true
  else pure false

/-- Takes as many characters as pass a test. -/
def run (p : Char → Bool) : Reading (List Char) :=
  loop ([] : List Char) fun taken => do
    match ← peek? with
    | some c =>
      if p c then
        skip
        pure (.inl (c :: taken))
      else pure (.inr taken.reverse)
    | none => pure (.inr taken.reverse)

end Reading

end FpgaProject.Shell
