import FpgaProject.Shell.Pattern

/-!
Regular expressions.

A regular expression is read in one of two dialects: in the basic one, groups, alternatives and most
repetitions are written with a backslash, in the extended one without. It matches a stretch of a
text as early as possible and of those as long as possible; what its groups match is kept.
-/

namespace FpgaProject.Shell

inductive Regex where
  | empty
  | any
  | one (c : Char)
  | among (others : Bool) (sets : List LetterSet)
  | start
  | finish
  | group (n : Nat) (r : Regex)
  | sequence (a b : Regex)
  | either (a b : Regex)
  | repeated (r : Regex) (least : Nat) (most : Option Nat)
deriving DecidableEq, Repr

namespace Regex

/-! ### Matching -/

/-- A match on the way: how far it has come, and where its groups start and end. -/
structure Thread where
  place : Nat
  groups : List (Nat × Nat × Nat) := []
deriving DecidableEq, Repr

/-- Threads without those that have come as far as an earlier one. -/
def distinct (ts : List Thread) : List Thread :=
  (ts.foldl (fun (kept : List Thread) t =>
    if kept.any (·.place = t.place) then kept else t :: kept) []).reverse

/-- Goes on from each thread any number of times, at most `most` times if that is given; those that
have gone further come first. -/
def closure (go : Thread → List Thread) :
    Nat → Option Nat → List Thread → List Thread → List Thread
  | 0, _, _, found => found
  | _, some 0, _, found => found
  | fuel + 1, most, front, found =>
    let next := (distinct (front.flatMap go)).filter fun t => !found.any (·.place = t.place)
    if next = [] then found else closure go fuel (most.map (· - 1)) next (next ++ found)

/-- Where an expression may have come to from a place, the preferred ones first. -/
def run (text : Array Char) : Regex → Thread → List Thread
  | .empty, t => [t]
  | .any, t => step t fun _ => true
  | .one c, t => step t (· = c)
  | .among others sets, t => step t fun c => sets.any (·.contains c) != others
  | .start, t => if t.place = 0 then [t] else []
  | .finish, t => if t.place = text.size then [t] else []
  | .group n r, t =>
    (run text r t).map fun u =>
      { u with groups := (n, t.place, u.place) :: u.groups.filter (·.1 ≠ n) }
  | .sequence a b, t => distinct ((run text a t).flatMap (run text b))
  | .either a b, t => distinct (run text a t ++ run text b t)
  | .repeated r least most, t =>
    let first := (List.range least).foldl
      (fun (front : List Thread) _ => distinct (front.flatMap (run text r))) [t]
    closure (run text r) (text.size + 1) (most.map (· - least)) first first
where
  /-- Goes on if the next character passes a test. -/
  step (t : Thread) (p : Char → Bool) : List Thread :=
    if (text[t.place]?).any p then [{ t with place := t.place + 1 }] else []

/-- A stretch of a text that matches, and what the groups match. -/
structure Found where
  first : Nat
  last : Nat
  groups : List (Nat × Nat × Nat)
deriving DecidableEq, Repr

def matchAt? (r : Regex) (text : Array Char) (place : Nat) : Option Found :=
  let best := (run text r ⟨place, []⟩).foldl (fun (best : Option Thread) t =>
    if best.all fun b => b.place < t.place then some t else best) none
  best.map fun t => ⟨place, t.place, t.groups⟩

def search? (r : Regex) (text : Array Char) (place : Nat) : Option Found :=
  (List.range (text.size + 1 - place)).findSome? fun n => r.matchAt? text (place + n)

def isIn (r : Regex) (text : String) : Bool :=
  (r.search? text.toList.toArray 0).isSome

/-! ### Reading -/

/-- The units of which expressions are made. -/
inductive RegexUnit where
  | atom (r : Regex)
  | opening
  | closing
  | bar
  | times (least : Nat) (most : Option Nat)
deriving DecidableEq, Repr

def openBrackets : String :=
  "Unmatched [, [^, [:, [., or [="

/-- The items in brackets, at most `fuel` of them; the first one may be a closing bracket. -/
def bracketItems : Nat → Bool → List Char → Except String (List LetterSet × List Char)
  | 0, _, _ => .error openBrackets
  | fuel + 1, isFirst, s =>
    let more (set : LetterSet) (rest : List Char) : Except String (List LetterSet × List Char) :=
      (bracketItems fuel false rest).map fun (sets, rest) => (set :: sets, rest)
    match s with
    | [] => .error openBrackets
    | '[' :: ':' :: rest =>
      let name := rest.takeWhile Char.isAlpha
      match rest.drop name.length with
      | ':' :: ']' :: behind => more (.named (String.ofList name)) behind
      | _ => .error "Invalid character class name"
    | c :: rest =>
      if c = ']' && !isFirst then .ok ([], rest)
      else match rest with
        | '-' :: d :: behind => if d = ']' then more (.range c c) rest else more (.range c d) behind
        | rest => more (.range c c) rest

/-- The numbers of a repetition in braces, with what is left behind the closing one. -/
def interval (extended : Bool) (s : List Char) : Except String (RegexUnit × List Char) :=
  let number (digits : List Char) : Nat := (String.ofList digits).toNat?.getD 0
  let least := s.takeWhile Char.isDigit
  let (most, rest) := match s.drop least.length with
    | ',' :: rest => (rest.takeWhile Char.isDigit, rest.dropWhile Char.isDigit)
    | rest => (least, rest)
  let unit : RegexUnit := .times (number least) (if most = [] then none else some (number most))
  match extended, rest with
  | true, '\x7d' :: rest => .ok (unit, rest)
  | false, '\\' :: '\x7d' :: rest => .ok (unit, rest)
  | _, _ => .error "Invalid content of \\\x7b\\\x7d"

/-- The unit that a character means which is no text, with what is left behind it. -/
def operator (extended : Bool) (c : Char) (s : List Char) :
    Except String (RegexUnit × List Char) :=
  match c with
  | '(' => .ok (.opening, s)
  | ')' => .ok (.closing, s)
  | '|' => .ok (.bar, s)
  | '+' => .ok (.times 1 none, s)
  | '?' => .ok (.times 0 (some 1), s)
  | '\x7b' => interval extended s
  | c => .ok (.atom (.one c), s)

/-- The units of an expression, at most `fuel` of them; `isFirst` tells whether a branch starts
here. -/
def units (extended : Bool) : Nat → Bool → List Char → Except String (List RegexUnit)
  | 0, _, _ | _, _, [] => .ok []
  | fuel + 1, isFirst, c :: s => do
    let (unit, rest) ← match c with
      | '.' => pure (.atom .any, s)
      | '[' => do
        let (others, inside) := if s.head? = some '^' then (true, s.tail) else (false, s)
        let (sets, rest) ← bracketItems (inside.length + 1) true inside
        pure (.atom (.among others sets), rest)
      | '*' => pure (if isFirst then .atom (.one c) else .times 0 none, s)
      | '^' => pure (.atom (if extended || isFirst then .start else .one c), s)
      | '$' =>
        let isLast := s.isEmpty || ['\\', ')'].isPrefixOf s || ['\\', '|'].isPrefixOf s
        pure (.atom (if extended || isLast then .finish else .one c), s)
      | '\\' =>
        match s with
        | [] => throw "Trailing backslash"
        | c :: s => if extended then pure (.atom (.one c), s) else operator extended c s
      | c => if extended then operator extended c s else pure (.atom (.one c), s)
    let starts := unit = .opening || unit = .bar || unit = .atom .start
    pure (unit :: (← units extended fuel starts rest))

/-- Repetitions of an expression behind it. -/
def withTimes (r : Regex) : List RegexUnit → Regex × List RegexUnit
  | .times least most :: us => withTimes (.repeated r least most) us
  | us => (r, us)

/-- Alternatives behind a part of the first one, up to a closing bracket or the end, with at most
`fuel` units; gives what is left and the number of groups. -/
def alternatives : Nat → Nat → Regex → List RegexUnit →
    Except String (Regex × List RegexUnit × Nat)
  | 0, _, _, _ => .error "Regular expression too big"
  | fuel + 1, groups, before, us =>
    match us with
    | [] | .closing :: _ => .ok (before, us, groups)
    | .bar :: us => do
      let (b, us, groups) ← alternatives fuel groups .empty us
      .ok (.either before b, us, groups)
    | .times .. :: us => alternatives fuel groups before us
    | .atom a :: us =>
      let (a, us) := withTimes a us
      alternatives fuel groups (.sequence before a) us
    | .opening :: us => do
      let n := groups + 1
      match ← alternatives fuel n .empty us with
      | (a, .closing :: us, groups) =>
        let (a, us) := withTimes (.group n a) us
        alternatives fuel groups (.sequence before a) us
      | _ => .error "Unmatched ( or \\("

/-- Reads an expression, or says what is wrong with it. -/
def ofText (extended : Bool) (s : String) : Except String Regex := do
  let us ← units extended s.length true s.toList
  match ← alternatives (us.length + 1) 0 .empty us with
  | (r, [], _) => .ok r
  | _ => .error "Unmatched ) or \\)"

end Regex

def stretchOf (text : Array Char) (first last : Nat) : String :=
  String.ofList (text.extract first last).toList

/-- A text up to a character, which a backslash hides, and what is left behind that one. A backslash
and an `n` stand for the end of a line. -/
def delimited (stop : Char) : List Char → Option (List Char × List Char)
  | [] => none
  | '\\' :: c :: rest =>
    (delimited stop rest).map fun (text, left) =>
      (if c = stop then c :: text else if c = 'n' then '\n' :: text else '\\' :: c :: text, left)
  | c :: rest =>
    if c = stop then some ([], rest)
    else (delimited stop rest).map fun (text, left) => (c :: text, left)

end FpgaProject.Shell
