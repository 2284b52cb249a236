import FpgaProject.Diagnostics.Pattern
import FpgaProject.Report
import FpgaProject.Text.Alphanumeric
import FpgaProject.Text.Blank
import FpgaProject.Text.Bytes
import FpgaProject.Text.Natural

/-!
Filters of events.

A filter is a list of rules; a rule sets the gravest-to-least bound for the topics whose name starts
with its target, and may ask for a field that the events must have. For an event the rule with the
longest such target decides; of two with the same target one that asks for a field goes first, and
else the later one. A filter is written as rules with commas between them: `target=level`, a level
alone, which is meant for all topics, or a target alone, which shows everything. A field stands
behind the target in braces within brackets; it may have a value, which no field of an event has.
Brackets with anything else in them are about spans of time; there are none, so such a rule is about
no event either.
-/

namespace FpgaProject.Diagnostics

/-- The least grave level that is shown; nothing if no level is. -/
abbrev Bound := Option Level

def Bound.admits (b : Bound) (l : Level) : Bool :=
  b.any fun least => l.rank ≤ least.rank

/-- What is shown of the topics whose name starts with a target, or of all topics. -/
structure Rule where
  target : Option String
  field : Option String
  bound : Bound
deriving DecidableEq, Repr

abbrev Filter := List Rule

def messageField : String := "message"

namespace Rule

def concerns (r : Rule) (topic : String) : Bool :=
  r.target.all (fun t => t.toList.isPrefixOf topic.toList) && r.field.all (· = messageField)

/-- How much a rule says about where it applies: by its target first, then by its field. -/
def weight (r : Rule) : Nat × Nat :=
  ((r.target.map (·.length + 1)).getD 0, if r.field.isSome then 1 else 0)

/-- Whether a rule says no more than another one. -/
def yields (r s : Rule) : Bool :=
  r.weight.1 < s.weight.1 || (r.weight.1 = s.weight.1 && r.weight.2 ≤ s.weight.2)

end Rule

namespace Filter

/-- Of two rules, the one that decides. -/
def stronger (earlier : Option Rule) (later : Rule) : Option Rule :=
  match earlier with
  | some r => if r.yields later then some later else some r
  | none => some later

def ruleFor? (f : Filter) (topic : String) : Option Rule :=
  (f.filter (·.concerns topic)).foldl stronger none

def shows (f : Filter) (e : Event) : Bool :=
  (f.ruleFor? e.topic.name).any fun r => r.bound.admits e.level

/-! ### Reading filters -/

def bound? (s : String) : Option Bound :=
  let named (word : String) : Bool := s.toList.map Char.toLower == word.toList
  match Text.readNatural s with
  | .ok 0 => some none
  | .ok 1 => some (some .error)
  | .ok 2 => some (some .warn)
  | .ok 3 => some (some .info)
  | .ok 4 => some (some .debug)
  | .ok 5 => some (some .trace)
  | _ =>
    if named "off" then some none
    else if named "error" then some (some .error)
    else if named "warn" then some (some .warn)
    else if named "info" then some (some .info)
    else if named "debug" then some (some .debug)
    else if named "trace" then some (some .trace)
    else none

def isRuleStart (c : Char) : Bool :=
  Text.isAlphanumeric c || c = '-' || c = ':' || c = '_' || c = '['

/-- The bound for what stands behind an equals sign, which may be nothing. -/
def boundAfter? (level : List Char) : Option Bound :=
  if level = [] then some (some .trace) else bound? (String.ofList level)

/-- The bound for what stands behind the brackets of a rule: blanks, or an equals sign with a level.
A level is not understood if there are blanks in front of the rule. -/
def boundBehind? (indented : Bool) (s : List Char) : Option Bound :=
  match s with
  | '=' :: level => if indented then none else boundAfter? level
  | s => if s.all Text.isBlank then some (some .trace) else none

/-- Whether a field can be asked for: it must be there, and a value behind it, which goes up to
another equals sign, must be one. -/
def isField (field : List Char) : Bool :=
  match field.dropWhile (· ≠ '=') with
  | _ :: value => isFieldValue (value.takeWhile (· ≠ '='))
  | [] => field ≠ []

/-- The rules for a target with brackets behind it; `s` is what stands behind the opening one. What
the parts of a rule say is read where they would stand without the blanks in front of it, counted in
bytes; a rule that would be cut within a character is not understood. -/
def bracketed? (blanks target s : List Char) : Option (List Rule) := do
  let indented := blanks ≠ []
  let text := blanks ++ target ++ '[' :: s
  let name := s.takeWhile fun c => c ≠ ']' && c ≠ '\x7b'
  let nameStart := Text.byteCount target + 1
  let nameEnd := nameStart + Text.byteCount name
  let _ ← Text.cut? 0 (Text.byteCount target) text
  let _ ← Text.cut? nameStart nameEnd text
  match s.drop name.length with
  | ']' :: rest => (boundBehind? indented rest).map fun _ => []
  | '\x7b' :: inside =>
    let written := inside.takeWhile (· ≠ '\x7d')
    let field ← Text.cut? (nameEnd + 1) (nameEnd + 1 + Text.byteCount written) text
    match inside.drop written.length with
    | '\x7d' :: ']' :: rest =>
      if isField field then
        (boundBehind? indented rest).map fun b =>
          if indented || name ≠ [] || field.contains '=' then []
          else
            let target := if target = [] then none else some (String.ofList target)
            [⟨target, some (String.ofList field), b⟩]
      else none
    | _ => none
  | _ => none

/-- Reads what stands between two commas. -/
def rules? (s : List Char) : Option (List Rule) :=
  let blanks := s.takeWhile Text.isBlank
  let indented := blanks ≠ []
  if !(s.dropWhile Text.isBlank).head?.any isRuleStart then none
  else
    let target := s.takeWhile fun c => c ≠ '=' && c ≠ '['
    match s.drop target.length with
    | '=' :: level =>
      if indented then none
      else (boundAfter? level).map fun b => [⟨some (String.ofList target), none, b⟩]
    | '[' :: inside => bracketed? blanks (target.dropWhile Text.isBlank) inside
    | _ =>
      match bound? (String.ofList s) with
      | some b => some [⟨none, none, b⟩]
      | none => some [⟨some (String.ofList s), none, some .trace⟩]

def standard : Filter := [⟨none, none, some .warn⟩]

def gravest : Filter := [⟨none, none, some .error⟩]

def ofText? (s : String) : Option Filter :=
  match (Text.splitAt ',' s.toList).filter (· ≠ []) with
  | [] => some gravest
  | pieces => (pieces.mapM rules?).map List.flatten

def ofSetting (s : Option String) : Filter :=
  (s.bind ofText?).getD standard

end Filter

end FpgaProject.Diagnostics
