/-!
Patterns for texts.

In a pattern an asterisk stands for any text, a question mark for any character and brackets for one
of several characters. A letter that comes from quotes is hidden: it stands for itself.
-/

namespace FpgaProject.Shell

/-- A character of a word whose values are known; it may be hidden from patterns. -/
structure Letter where
  char : Char
  isHidden : Bool
deriving DecidableEq, Repr

/-- Characters that brackets stand for: those between two, or those of a class. -/
inductive LetterSet where
  | range (first last : Char)
  | named (name : String)
deriving DecidableEq, Repr

inductive PatternPart where
  | text
  | one
  | char (c : Char)
  | among (others : Bool) (sets : List LetterSet)
deriving DecidableEq, Repr

abbrev Pattern := List PatternPart

def letterClass? : String → Option (Char → Bool)
  | "alnum" => some Char.isAlphanum
  | "alpha" => some Char.isAlpha
  | "blank" => some fun c => c = ' ' || c = '\t'
  | "cntrl" => some fun c => c.toNat < 32 || c.toNat = 127
  | "digit" => some Char.isDigit
  | "graph" => some fun c => 32 < c.toNat && c.toNat < 127
  | "lower" => some Char.isLower
  | "print" => some fun c => 32 ≤ c.toNat && c.toNat < 127
  | "punct" => some fun c => 32 < c.toNat && c.toNat < 127 && !c.isAlphanum
  | "space" => some fun c => c = ' ' || (9 ≤ c.toNat && c.toNat ≤ 13)
  | "upper" => some Char.isUpper
  | "xdigit" => some fun c => c.isDigit || ('a' ≤ c.toLower && c.toLower ≤ 'f')
  | _ => none

/-- Whether a character is among those that brackets stand for. -/
def LetterSet.contains (c : Char) : LetterSet → Bool
  | .range first last => first ≤ c && c ≤ last
  | .named name => (letterClass? name).any (· c)

def PatternPart.admits (c : Char) : PatternPart → Bool
  | .text | .one => true
  | .char d => c = d
  | .among others sets => sets.any (·.contains c) != others

namespace Pattern

/-- The class whose name stands behind `[:`, with what is left. -/
def named? (s : List Letter) : Option (LetterSet × List Letter) :=
  let name := s.takeWhile fun l => l.char.isAlpha
  match s.drop name.length with
  | ⟨':', _⟩ :: ⟨']', _⟩ :: rest =>
    let name := String.ofList (name.map (·.char))
    (letterClass? name).map fun _ => (.named name, rest)
  | _ => none

/-- The letter at the front, without a backslash that hides it, with what is left. -/
def letter? : List Letter → Option (Letter × List Letter)
  | ⟨'\\', false⟩ :: l :: rest => some (⟨l.char, true⟩, rest)
  | l :: rest => some (l, rest)
  | [] => none

/-- What stands in brackets behind the opening one, with what is left behind the closing one. The
first letter never closes the brackets. -/
def sets? : Nat → Bool → List Letter → Option (List LetterSet × List Letter)
  | 0, _, _ => none
  | fuel + 1, first, s =>
    match s with
    | [] => none
    | ⟨']', false⟩ :: rest => if first then others fuel ⟨']', false⟩ rest else some ([], rest)
    | ⟨'[', false⟩ :: ⟨':', false⟩ :: rest =>
      match named? rest with
      | some (set, rest) => (sets? fuel false rest).map fun (sets, rest) => (set :: sets, rest)
      | none => others fuel ⟨'[', false⟩ (⟨':', false⟩ :: rest)
    | s => (letter? s).bind fun (l, rest) => others fuel l rest
where
  /-- A character or a range, and what follows it. -/
  others (fuel : Nat) (l : Letter) (rest : List Letter) : Option (List LetterSet × List Letter) :=
    match rest with
    | ⟨'-', false⟩ :: next :: more =>
      if next = ⟨']', false⟩ then
        (sets? fuel false rest).map fun (sets, rest) => (.range l.char l.char :: sets, rest)
      else
        (letter? (next :: more)).bind fun (last, rest) =>
          (sets? fuel false rest).map fun (sets, rest) => (.range l.char last.char :: sets, rest)
    | rest => (sets? fuel false rest).map fun (sets, rest) => (.range l.char l.char :: sets, rest)

/-- The part of a pattern at the front, with what is left. A bracket that is not closed stands for
itself. -/
def part (l : Letter) (rest : List Letter) : PatternPart × List Letter :=
  if l.isHidden then (.char l.char, rest)
  else if l.char = '*' then (.text, rest)
  else if l.char = '?' then (.one, rest)
  else if l.char = '[' then
    let (others, inside) := match rest with
      | ⟨'!', false⟩ :: inside => (true, inside)
      | inside => (false, inside)
    match sets? (inside.length + 1) true inside with
    | some (sets, rest) => (.among others sets, rest)
    | none => (.char '[', rest)
  else if l.char = '\\' then
    match rest with
    | next :: rest => (.char next.char, rest)
    | [] => (.char '\\', [])
  else (.char l.char, rest)

/-- The pattern that letters mean, at most `fuel` parts of it. -/
def ofLettersUpTo : Nat → List Letter → Pattern
  | 0, _ => []
  | _, [] => []
  | fuel + 1, l :: rest =>
    let (p, rest) := part l rest
    p :: ofLettersUpTo fuel rest

def ofLetters (s : List Letter) : Pattern :=
  ofLettersUpTo s.length s

def ofText (s : String) : Pattern :=
  ofLetters (s.toList.map fun c => ⟨c, false⟩)

def fits : Pattern → List Char → Bool
  | [], t => t.isEmpty
  | .text :: p, t => (List.range (t.length + 1)).any fun n => fits p (t.drop n)
  | part :: p, t =>
    match t with
    | c :: t => part.admits c && fits p t
    | [] => false

end Pattern

/-- Whether letters have something in them that makes them a pattern. -/
def hasPattern (s : List Letter) : Bool :=
  s.any fun l => !l.isHidden && ['*', '?', '['].contains l.char

/-- The lengths of the stretches at the front of a text that fit a pattern, in rising order. -/
def fittingLengths (p : Pattern) (t : List Char) : List Nat :=
  (List.range (t.length + 1)).filter fun n => p.fits (t.take n)

/-- A text without the stretch at its front, or at its end, that fits a pattern: the shortest one or
the longest one. -/
def trimmed (atEnd longest : Bool) (p : List Letter) (t : List Char) : List Char :=
  let p := Pattern.ofLetters p
  let pick (lengths : List Nat) : Option Nat :=
    if longest then lengths.getLast? else lengths.head?
  if atEnd then
    let lengths := (List.range (t.length + 1)).filter fun n => p.fits (t.drop (t.length - n))
    match pick lengths with
    | some n => t.take (t.length - n)
    | none => t
  else
    match pick (fittingLengths p t) with
    | some n => t.drop n
    | none => t

end FpgaProject.Shell
