import FpgaProject.Text.Bytes

/-!
Reading a text from left to right.

A cursor is what is left of the text and how many bytes are behind it. A reader takes a stretch off
the front or refuses; what it refuses is left to the caller, who may try something else.
-/

namespace FpgaProject.Text

structure Cursor where
  rest : List Char
  behind : Nat
deriving Repr

def Cursor.start (s : String) : Cursor :=
  ⟨s.toList, 0⟩

/-- Takes a stretch off the front of the text, or refuses. -/
def Reader (α : Type) : Type :=
  Cursor → Option (α × Cursor)

namespace Reader

variable {α β : Type}

instance : Monad Reader where
  pure a := fun c => some (a, c)
  bind r f := fun c =>
    match r c with
    | none => none
    | some (a, c) => f a c

def refuse : Reader α := fun _ => none

/-- Tries one reader and, if it refuses, another one from the same place. -/
def orElse (r s : Reader α) : Reader α := fun c =>
  match r c with
  | none => s c
  | found => found

def firstOf (readers : List (Reader α)) : Reader α :=
  readers.foldr orElse refuse

def position : Reader Nat := fun c => some (c.behind, c)

def ahead : Reader (List Char) := fun c => some (c.rest, c)

def peek? : Reader (Option Char) := fun c => some (c.rest.head?, c)

/-- Takes one character that passes a test. -/
def satisfying (p : Char → Bool) : Reader Char := fun c =>
  match c.rest with
  | [] => none
  | x :: rest => if p x then some (x, ⟨rest, c.behind + x.utf8Size⟩) else none

def char (x : Char) : Reader Unit := do
  let _ ← satisfying (· = x)

/-- Takes given characters one after another. -/
def chars : List Char → Reader Unit
  | [] => pure ()
  | x :: xs => do
    char x
    chars xs

/-- Takes as many characters as pass a test. -/
def run (p : Char → Bool) : Reader (List Char) := fun c =>
  let taken := c.rest.takeWhile p
  some (taken, ⟨c.rest.dropWhile p, c.behind + byteCount taken⟩)

/-- Takes as many characters as pass a test, at least one. -/
def run1 (p : Char → Bool) : Reader (List Char) := do
  let taken ← run p
  if taken = [] then refuse else pure taken

/-- Takes exactly `n` characters that pass a test. -/
def exactly (p : Char → Bool) : Nat → Reader (List Char)
  | 0 => pure []
  | n + 1 => do
    let x ← satisfying p
    let xs ← exactly p n
    pure (x :: xs)

def optional (r : Reader α) : Reader (Option α) := fun c =>
  match r c with
  | none => some (none, c)
  | some (a, c) => some (some a, c)

def atEnd : Reader Bool := fun c => some (c.rest.isEmpty, c)

/-- Repeats a reader as long as it does not refuse, at most `fuel` times. -/
def many (r : Reader α) : Nat → Reader (List α)
  | 0 => pure []
  | fuel + 1 => fun c =>
    match r c with
    | none => some ([], c)
    | some (a, c) =>
      match many r fuel c with
      | none => none
      | some (as, c) => some (a :: as, c)

/-- As many repetitions as the text has characters. -/
def repeated (r : Reader α) : Reader (List α) := do
  let rest ← ahead
  many r rest.length

end Reader

end FpgaProject.Text
