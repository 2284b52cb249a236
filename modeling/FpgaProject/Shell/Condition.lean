import FpgaProject.Shell.Formula
import FpgaProject.Shell.Utility.Basic

/-!
Conditions on words.

A condition compares texts or numbers or asks what a name names; conditions are joined and negated.
-/

namespace FpgaProject.Shell

namespace Condition

def number (s : String) : Except String Int :=
  match numberOf? false s with
  | some n => .ok n
  | none => .error ("Illegal number: " ++ s)

/-- What an operator in front of a word says of it, if it is one. -/
def unary? (d : Disk) (operator word : String) : Option Bool :=
  match operator with
  | "-z" => some word.isEmpty
  | "-n" => some !word.isEmpty
  | "-e" | "-r" | "-w" => some (entryOf? d word).isSome
  | "-f" => some (d.isFile (pathOf word))
  | "-d" => some (namesDirectory d word)
  | "-p" => some (isPipe d word)
  | "-s" =>
    some <| match entryOf? d word with
      | some (.file c _) => contentOctets c ≠ ""
      | some .directory => true
      | none => false
  | "-x" =>
    some <| match entryOf? d word with
      | some (.file _ x) => x
      | some .directory => true
      | none => false
  | _ => none

/-- What an operator between two words says of them, if it is one. -/
def binary? (a operator b : String) : Option (Except String Bool) :=
  let compared (p : Int → Int → Bool) : Option (Except String Bool) :=
    some do .ok (p (← number a) (← number b))
  match operator with
  | "=" => some (.ok (a = b))
  | "!=" => some (.ok (a ≠ b))
  | "-eq" => compared fun m n => m = n
  | "-ne" => compared fun m n => m ≠ n
  | "-ge" => compared fun m n => n ≤ m
  | "-gt" => compared fun m n => n < m
  | "-le" => compared fun m n => m ≤ n
  | "-lt" => compared fun m n => m < n
  | _ => none

/-- Reads a condition and says whether it holds, with the words behind it. -/
abbrev Reader := List String → Except String (Bool × List String)

/-- A condition by itself, which may be negated; `whole` reads one in brackets. -/
def primary (d : Disk) (whole : Reader) : Reader
  | a :: operator :: b :: ws =>
    match binary? a operator b with
    | some r => r.map fun holds => (holds, ws)
    | none => single a (operator :: b :: ws)
  | a :: ws => single a ws
  | [] => .error "argument expected"
where
  /-- A condition that starts with a word and is no comparison. -/
  single (a : String) (ws : List String) : Except String (Bool × List String) :=
    match a, ws with
    | "!", w :: ws => (primary d whole (w :: ws)).map fun (holds, ws) => (!holds, ws)
    | "(", w :: ws => do
      match ← whole (w :: ws) with
      | (holds, ")" :: ws) => .ok (holds, ws)
      | _ => .error "closing paren expected"
    | a, w :: ws =>
      match unary? d a w with
      | some holds => .ok (holds, ws)
      | none => .ok (!a.isEmpty, w :: ws)
    | a, [] => .ok (!a.isEmpty, [])

/-- Conditions of which all must hold, at most `fuel` more of them. -/
def conjunction (d : Disk) (whole : Reader) : Nat → Reader
  | 0, ws => primary d whole ws
  | fuel + 1, ws => do
    match ← primary d whole ws with
    | (a, "-a" :: ws) => do
      let (b, ws) ← conjunction d whole fuel ws
      .ok (a && b, ws)
    | r => .ok r

/-- A condition, nested and joined at most as often as `fuel` says; `-a` binds closer than `-o`. -/
def reader (d : Disk) : Nat → Reader
  | 0, _ => .error "argument expected"
  | fuel + 1, ws => do
    match ← conjunction d (reader d fuel) ws.length ws with
    | (a, "-o" :: ws) => do
      let (b, ws) ← reader d fuel ws
      .ok (a || b, ws)
    | r => .ok r

def holds (d : Disk) (ws : List String) : Except String Bool :=
  if ws.isEmpty then .ok false
  else do
    match ← reader d (ws.length + 1) ws with
    | (b, []) => .ok b
    | (_, w :: _) => .error (w ++ ": unexpected operator")

end Condition

def test : Utility := fun _ args s =>
  match Condition.holds s.disk args with
  | .ok b => { s with status := if b then 0 else 1 }
  | .error reason => s.fail reason 2

def bracket : Utility := fun name args s =>
  if args.getLast? = some "]" then test name args.dropLast s else s.fail "missing ]" 2

end FpgaProject.Shell
