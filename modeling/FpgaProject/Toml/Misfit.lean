import FpgaProject.Toml.Item
import FpgaProject.Text.Bytes
import FpgaProject.Text.Quoted
import FpgaProject.Text.Split

/-!
What is wrong with a document.

A document that is no TOML has a syntax error, of which only the fact is kept. One that is TOML but
says something else than what is asked for has a misfit: a problem, and the place that it is about.
The report of a misfit shows the line and underlines the place.
-/

namespace FpgaProject.Toml

/-- What stands where something else should. -/
inductive Found where
  | integer (n : Int)
  | real (x : Binary64)
  | boolean (b : Bool)
  | string (s : String)
  | sequence
  | map
deriving DecidableEq, Repr

def Found.text : Found → String
  | .integer n => "integer `" ++ toString n ++ "`"
  | .real x => "floating point `" ++ x.pointedText ++ "`"
  | .boolean b => "boolean `" ++ (if b then "true" else "false") ++ "`"
  | .string s => "string " ++ Text.quoted s
  | .sequence => "sequence"
  | .map => "map"

/-- What an item is, seen by one who expects something else. -/
def Item.found : Item → Found
  | .scalar _ (.string s) => .string s
  | .scalar _ (.integer n) => .integer n
  | .scalar _ (.real x) => .real x
  | .scalar _ (.boolean b) => .boolean b
  | .scalar _ (.moment _) => .map
  | .list .. => .sequence
  | .table .. => .map

/-- The ways in which an item can differ from what is asked for. -/
inductive Problem where
  | wrongType (found : Found) (expected : String)
  | tooShort (length : Nat) (expected : String)
  | unknownField (name : String) (known : List String)
  | missingField (name : String)
  | noGeneric
  | refused (reason : String)
deriving DecidableEq, Repr

def offered : List String → String
  | [] => "there are no fields"
  | [a] => "expected `" ++ a ++ "`"
  | [a, b] => "expected `" ++ a ++ "` or `" ++ b ++ "`"
  | names => "expected one of " ++ ", ".intercalate (names.map fun n => "`" ++ n ++ "`")

def Problem.text : Problem → String
  | .wrongType found expected => "invalid type: " ++ found.text ++ ", expected " ++ expected
  | .tooShort length expected => "invalid length " ++ toString length ++ ", expected " ++ expected
  | .unknownField name known => "unknown field `" ++ name ++ "`, " ++ offered known
  | .missingField name => "missing field `" ++ name ++ "`"
  | .noGeneric => "data did not match any variant of untagged enum GenericValue"
  | .refused reason => reason

/-- A problem and the place that it is about, as far as that is known. -/
structure Misfit where
  problem : Problem
  span : Option Span
deriving DecidableEq, Repr

/-- Gives a misfit a place, unless it has one. -/
def Misfit.placedAt (m : Misfit) (span : Option Span) : Misfit :=
  { m with span := m.span.or span }

/-- What is wrong with a document. -/
inductive Failure where
  | notToml
  | misfit (source : String) (m : Misfit)
deriving DecidableEq, Repr

/-! ### The report -/

/-- A place in a text: the number of the line, how many characters stand before the place in that
line, and the line. -/
structure LinePlace where
  number : Nat
  before : Nat
  line : List Char
deriving Repr

/-- Finds the line of the byte `index` among lines that start at the byte `at_`. Past the end, it
is the last line. -/
def findLine (index : Nat) : Nat → Nat → List (List Char) → LinePlace
  | number, _, [] => ⟨number, 0, []⟩
  | number, at_, line :: lines =>
    let size := Text.byteCount line
    if index ≤ at_ + size ∨ lines = [] then
      ⟨number, charsBefore (index - at_) line, line⟩
    else findLine index (number + 1) (at_ + size + 1) lines
where
  /-- How many characters fit in a number of bytes. -/
  charsBefore : Nat → List Char → Nat
    | _, [] => 0
    | n, c :: cs => if c.utf8Size ≤ n then charsBefore (n - c.utf8Size) cs + 1 else 0

/-- The lines that show where a span is: a number, the line and what is underlined. -/
def showPlace (source : String) (span : Span) : String :=
  let place := findLine span.start 1 0 (Text.splitAt '\n' source.toList)
  let number := toString place.number
  let gutter := String.ofList (List.replicate (number.length + 1) ' ')
  let size := Text.byteCount place.line
  let marks := max 1 (min span.stop (span.start + size) - span.start)
  "TOML parse error at line " ++ number ++ ", column " ++ toString (place.before + 1) ++ "\n" ++
    gutter ++ "|\n" ++
    number ++ " | " ++ String.ofList place.line ++ "\n" ++
    gutter ++ "| " ++ String.ofList (List.replicate place.before ' ') ++
    String.ofList (List.replicate marks '^') ++ "\n"

/-- The report of what is wrong with a document. -/
def Failure.message : Failure → String
  | .notToml => "<toml syntax error>"
  | .misfit source ⟨problem, span⟩ =>
    (match span with
      | some span => showPlace source span
      | none => "") ++ problem.text ++ "\n"

end FpgaProject.Toml
