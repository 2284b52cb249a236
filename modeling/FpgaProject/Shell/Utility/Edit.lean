import FpgaProject.Shell.Formula
import FpgaProject.Shell.Regex
import FpgaProject.Shell.Utility.Basic

/-!
Editing texts by a script.

For each line of a text the commands of a script are run in order, each if its addresses select the
line. What is left of the line is printed then, unless that is suppressed.
-/

namespace FpgaProject.Shell

namespace Edit

inductive Address where
  | line (n : Nat)
  | last
  | like (r : Regex)
deriving DecidableEq, Repr

/-- A part of what is put in place of a match. -/
inductive Filler where
  | char (c : Char)
  | group (n : Nat)
deriving DecidableEq, Repr

inductive Action where
  | replace (r : Regex) (fillers : List Filler) (everywhere printing : Bool)
  | print
  | delete
  | quit
deriving DecidableEq, Repr

/-- A command, with the lines for which it is run: all of them, those that an address selects, or
those from one that is selected to another; or all others. -/
structure Step where
  first : Option Address
  second : Option Address
  others : Bool
  action : Action
deriving DecidableEq, Repr

/-! ### Reading scripts -/

/-- An address at the front of a text, and what is left behind it. -/
def address? (extended : Bool) : List Char → Except String (Option Address × List Char)
  | '$' :: s => .ok (some .last, s)
  | '/' :: s =>
    match delimited '/' s with
    | none => .error "unterminated address regex"
    | some (text, s) => do .ok (some (.like (← Regex.ofText extended (String.ofList text))), s)
  | s =>
    let digits := s.takeWhile Char.isDigit
    .ok (if digits = [] then none else some (.line (ofDigits 10 digits)), s.drop digits.length)

/-- The parts of a text that is put in place of matches. -/
def fillers : List Char → List Filler
  | [] => []
  | '&' :: s => .group 0 :: fillers s
  | '\\' :: c :: s =>
    (if c.isDigit then .group (ofDigits 10 [c]) else .char c) :: fillers s
  | c :: s => .char c :: fillers s

/-- The command at the front of a text, without its addresses, and what is left behind it. -/
def action (extended : Bool) : List Char → Except String (Action × List Char)
  | 'p' :: s => .ok (.print, s)
  | 'd' :: s => .ok (.delete, s)
  | 'q' :: s => .ok (.quit, s)
  | 's' :: stop :: s => do
    match (delimited stop s).bind fun (r, s) => (delimited stop s).map fun x => (r, x) with
    | none => .error "unterminated 's' command"
    | some (r, text, s) =>
      let flags := s.takeWhile ['g', 'p'].contains
      let r ← Regex.ofText extended (String.ofList r)
      .ok (.replace r (fillers text) (flags.contains 'g') (flags.contains 'p'),
        s.drop flags.length)
  | c :: _ => .error ("unknown command: '" ++ String.singleton c ++ "'")
  | [] => .error "missing command"

/-- The commands of a script, at most `fuel` of them. -/
def steps (extended : Bool) : Nat → List Char → Except String (List Step)
  | 0, _ => .ok []
  | fuel + 1, s => do
    let s := s.dropWhile [' ', '\t', '\n', ';'].contains
    if s = [] then return []
    let (first, s) ← address? extended s
    let (second, s) ← match s with
      | ',' :: s => address? extended s
      | s => pure (none, s)
    let others := s.head? = some '!'
    let (a, s) ← action extended (if others then s.tail else s)
    match s.dropWhile (· = ' ') with
    | [] => .ok [⟨first, second, others, a⟩]
    | c :: rest =>
      if c ≠ ';' && c ≠ '\n' then throw "extra characters after command"
      .ok (⟨first, second, others, a⟩ :: (← steps extended fuel rest))

/-! ### Running scripts -/

/-- A text in which matches are replaced from a place on, and whether there are any. Behind a match an
empty one does not count. -/
def replaced (r : Regex) (parts : List Filler) (everywhere : Bool) (text : Array Char) :
    Nat → Nat → Bool → String × Bool
  | 0, place, _ => (stretchOf text place text.size, false)
  | fuel + 1, place, isBehindMatch =>
    match r.search? text place with
    | none => (stretchOf text place text.size, false)
    | some f =>
      let filled (part : Filler) : String :=
        match part with
        | .char c => String.singleton c
        | .group 0 => stretchOf text f.first f.last
        | .group n =>
          match f.groups.lookup n with
          | some (first, last) => stretchOf text first last
          | none => ""
      let isEmpty := f.first = f.last
      let counts := !(isEmpty && isBehindMatch && f.first = place)
      let front := stretchOf text place f.first ++
        if counts then String.join (parts.map filled) else ""
      if counts && !everywhere then (front ++ stretchOf text f.last text.size, true)
      else
        let next := if isEmpty then f.last + 1 else f.last
        let (rest, found) := replaced r parts everywhere text fuel next (!isEmpty)
        (front ++ stretchOf text f.last next ++ rest, counts || found)

/-- A line that is edited: its number, whether it is the last one, its text, what has been printed for
it, and the numbers of the commands whose stretches of lines go on. -/
structure Editing where
  number : Nat
  isLast : Bool
  line : String
  printed : List String := []
  open_ : List Nat := []

def Editing.meets (e : Editing) : Address → Bool
  | .line n => e.number = n
  | .last => e.isLast
  | .like r => r.isIn e.line

/-- Whether the command with a number is run for the line. -/
def Editing.selects (e : Editing) (k : Nat) (step : Step) : Editing × Bool :=
  match step.first, step.second with
  | none, _ => (e, !step.others)
  | some a, none => (e, e.meets a != step.others)
  | some a, some b =>
    let goesOn := e.open_.contains k
    let isOver := match b with
      | .line n => n ≤ e.number
      | b => goesOn && e.meets b
    let within := goesOn || e.meets a
    let others := e.open_.filter (· ≠ k)
    ({ e with open_ := if within && !isOver then k :: others else others }, within != step.others)

inductive Next where
  | line
  | deleted
  | quit
deriving DecidableEq, Repr

/-- Runs commands, of which the first one has the number `k`, for a line. -/
def Editing.run (k : Nat) : List Step → Editing → Editing × Next
  | [], e => (e, .line)
  | step :: more, e =>
    let (e, isSelected) := e.selects k step
    if !isSelected then run (k + 1) more e
    else match step.action with
      | .print => run (k + 1) more { e with printed := e.printed ++ [e.line] }
      | .delete => (e, .deleted)
      | .quit => (e, .quit)
      | .replace r parts everywhere printing =>
        let text := e.line.toList.toArray
        let (line, found) := replaced r parts everywhere text (text.size + 2) 0 false
        let e := { e with line := line }
        run (k + 1) more
          (if found && printing then { e with printed := e.printed ++ [line] } else e)

/-- Edits lines, of which the first one has the number `n`; gives what is printed for each. -/
def onLines (quiet : Bool) (script : List Step) (n : Nat) (open_ : List Nat) :
    List String → List (List String)
  | [] => []
  | line :: rest =>
    let e : Editing := { number := n, isLast := rest.isEmpty, line := line, open_ := open_ }
    let (e, next) := e.run 0 script
    let printed := if quiet || next = .deleted then e.printed else e.printed ++ [e.line]
    printed :: if next = .quit then [] else onLines quiet script (n + 1) e.open_ rest

end Edit

def sed : Utility :=
  withOptions "nEr" "e" fun name o s =>
    let scripts := if o.has 'e' then o.values 'e' else o.operands.take 1
    let script := "\n".intercalate scripts
    match Edit.steps (o.has 'E' || o.has 'r') (script.length + 1) script.toList with
    | .error reason => s.fail (name ++ ": -e expression #1: " ++ reason)
    | .ok steps =>
      let complain (file reason : String) : String := "can't read " ++ file ++ ": " ++ reason
      let (s, texts) :=
        s.readAll name complain (if o.has 'e' then o.operands else o.operands.drop 1)
      let lines := texts.flatMap linesOf
      let printed := Edit.onLines (o.has 'n') steps 1 [] lines
      let text := unlines printed.flatten
      -- The end of the last line is printed only if it is there.
      let isOpen := (texts.getLast?.any fun t => !t.isEmpty && !t.endsWith "\n") &&
        printed.length = lines.length && (printed.getLast?.any (!·.isEmpty))
      s.print (if isOpen then String.ofList text.toList.dropLast else text)

end FpgaProject.Shell
