import FpgaProject.Shell.Records.Program
import FpgaProject.Shell.Utility.Basic

/-!
Running programs that work on records.

The records of a text are its lines; a record is a sequence of fields. Numbers are whole ones. A value
that comes from a text counts as a number if it looks like one.
-/

namespace FpgaProject.Shell.Records

/-- A value; one that is given comes from a text that is worked on. -/
inductive Value where
  | number (n : Int)
  | text (s : String)
  | given (s : String)
  | unset
deriving DecidableEq, Repr

namespace Value

def ofBool (b : Bool) : Value :=
  .number (if b then 1 else 0)

def toText : Value → String
  | .number n => toString n
  | .text s | .given s => s
  | .unset => ""

def number? : Value → Option Int
  | .number n => some n
  | .given s => wholeNumber? s.trimAscii.toString
  | .text _ => none
  | .unset => some 0

def toNumber (v : Value) : Int :=
  v.number?.getD <|
    match v.toText.toList.dropWhile Char.isWhitespace with
    | '-' :: s => -(ofDigits 10 (s.takeWhile Char.isDigit) : Int)
    | s => ofDigits 10 (s.takeWhile Char.isDigit)

def holds (v : Value) : Bool :=
  match v with
  | .text s => !s.isEmpty
  | v => (v.number?.map fun n => n != 0).getD !v.toText.isEmpty

def order (a b : Value) : Ordering :=
  match a.number?, b.number? with
  | some m, some n => compare m n
  | _, _ => compare a.toText b.toText

end Value

structure Machine where
  record : String := ""
  fields : List String := []
  known : List (String × Value) := []
  elements : List ((String × String) × Value) := []
  output : String := ""

/-- What stops a statement: the end of the record, or of the program. -/
inductive Stop where
  | next
  | exit
  | error (reason : String)
deriving DecidableEq, Repr

abbrev Run := ExceptT Stop (StateM Machine)

/-- The parts of a text between matches from a place on, at most `fuel` more of them. -/
def between (r : Regex) (text : Array Char) : Nat → Nat → List String
  | 0, place => [stretchOf text place text.size]
  | fuel + 1, place =>
    match r.search? text place with
    | some f =>
      if f.first = f.last then [stretchOf text place text.size]
      else stretchOf text place f.first :: between r text fuel f.last
    | none => [stretchOf text place text.size]

def fieldsBy (separator text : String) : Except String (List String) := do
  if text.isEmpty then return []
  match separator.toList with
  | [' '] =>
    .ok ((text.toList.splitBy fun a b => a.isWhitespace = b.isWhitespace).filterMap fun part =>
      if part.head?.any Char.isWhitespace then none else some (String.ofList part))
  | [c] => .ok ((Text.splitAt c text.toList).map String.ofList)
  | _ => do .ok (between (← Regex.ofText true separator) text.toList.toArray text.length 0)

namespace Run

def refuse {α : Type} (reason : String) : Run α :=
  throw (.error reason)

def variable_ (name : String) : Run Value := do
  pure (((← get).known.lookup name).getD .unset)

def setVariable (name : String) (v : Value) : Run Unit :=
  modify fun m => { m with known := (name, v) :: m.known.filter (·.1 ≠ name) }

def setElement (array place : String) (v : Value) : Run Unit :=
  modify fun m =>
    { m with elements := ((array, place), v) :: m.elements.filter (·.1 ≠ (array, place)) }

def split (separator text : String) : Run (List String) := do
  match fieldsBy separator text with
  | .ok fields => pure fields
  | .error reason => refuse reason

def setRecord (text : String) : Run Unit := do
  let fields ← split (← variable_ "FS").toText text
  modify ({ · with record := text, fields := fields })
  setVariable "NF" (.number fields.length)

def combine (operator : String) (a b : Value) : Run Value := do
  let compared (p : Ordering → Bool) : Run Value := pure (.ofBool (p (a.order b)))
  let fits : Run Bool := do
    match Regex.ofText true b.toText with
    | .ok r => pure (r.isIn a.toText)
    | .error reason => refuse reason
  match operator with
  | "" => pure (.text (a.toText ++ b.toText))
  | "+" => pure (.number (a.toNumber + b.toNumber))
  | "-" => pure (.number (a.toNumber - b.toNumber))
  | "*" => pure (.number (a.toNumber * b.toNumber))
  | "/" | "%" =>
    let (m, n) := (a.toNumber, b.toNumber)
    if n = 0 then refuse "division by zero"
    else pure (.number (if operator = "/" then m.tdiv n else m.tmod n))
  | "==" => compared (· = .eq)
  | "!=" => compared (· ≠ .eq)
  | "<" => compared (· = .lt)
  | "<=" => compared Ordering.isLE
  | ">" => compared (· = .gt)
  | ">=" => compared Ordering.isGE
  | "&&" => pure (.ofBool (a.holds && b.holds))
  | "||" => pure (.ofBool (a.holds || b.holds))
  | "~" => do pure (.ofBool (← fits))
  | "!~" => do pure (.ofBool !(← fits))
  | _ => refuse ("no operator " ++ operator)

/-- What a function gives that does not change anything. -/
def plainCall (name : String) (arguments : List Value) : Run Value := do
  match name, arguments with
  | "length", [] => do pure (.number (← get).record.length)
  | "length", [a] => pure (.number a.toText.length)
  | "index", [a, b] =>
    let (s, t) := (a.toText.toList, b.toText.toList)
    let place := (List.range (s.length + 1)).find? fun n => t.isPrefixOf (s.drop n)
    pure (.number (((place.map (· + 1)).getD 0 : Nat) : Int))
  | "substr", a :: b :: more =>
    let s := a.toText.toList
    let first := b.toNumber - 1
    let last := (more.head?.map fun c => first + c.toNumber).getD s.length
    pure (.text (String.ofList ((s.take last.toNat).drop first.toNat)))
  | name, _ => refuse ("no function " ++ name)

mutual

def value : Expression → Run Value
  | .number n => pure (.number n)
  | .text s => pure (.text s)
  | .like r => do pure (.ofBool (r.isIn (← get).record))
  | .variable_ name => variable_ name
  | .element array place => do
    let p ← value place
    pure (((← get).elements.lookup (array, p.toText)).getD .unset)
  | .field place => do
    let n := (← value place).toNumber
    let m ← get
    pure (if n = 0 then .given m.record
      else ((m.fields[n.toNat - 1]?).map Value.given).getD .unset)
  | .assign goal e => do
    let v ← value e
    assign goal v
    pure v
  | .step change goal => do
    let n := (← value goal).toNumber
    assign goal (.number (n + change))
    pure (.number n)
  | .not e => do pure (.ofBool !(← value e).holds)
  | .negate e => do pure (.number (-(← value e).toNumber))
  | .binary "~" a (.like r) => do pure (.ofBool (r.isIn (← value a).toText))
  | .binary "!~" a (.like r) => do pure (.ofBool !(r.isIn (← value a).toText))
  | .binary o a b => do combine o (← value a) (← value b)
  | .call "split" (text :: .variable_ array :: more) => do
    let text ← value text
    let separator ← match more with
      | [] => variable_ "FS"
      | s :: _ => value s
    let fields ← split separator.toText text.toText
    modify fun m => { m with elements := m.elements.filter (·.1.1 ≠ array) }
    (fields.zipIdx 1).forM fun (f, n) => setElement array (toString n) (.given f)
    pure (.number fields.length)
  | .call name arguments => do plainCall name (← values arguments)

def values : List Expression → Run (List Value)
  | [] => pure []
  | e :: es => do
    let v ← value e
    pure (v :: (← values es))

def assign : Expression → Value → Run Unit
  | .variable_ name, v => setVariable name v
  | .element array place, v => do setElement array (← value place).toText v
  | .field place, v => do
    let n := (← value place).toNumber.toNat
    if n = 0 then setRecord v.toText
    else
      let before := (← get).fields
      let fields := (before ++ List.replicate (n - before.length) "").set (n - 1) v.toText
      modify ({ · with fields := fields, record := " ".intercalate fields })
      setVariable "NF" (.number fields.length)
  | _, _ => pure ()

end

def print (text : String) : Run Unit :=
  modify fun m => { m with output := m.output ++ text }

/-- Runs a statement; those in it are nested, or repeated, at most as often as `fuel` says. -/
def statement : Nat → Statement → Run Unit
  | 0, _ => refuse "too long"
  | fuel + 1, s => do
    match s with
    | .value e => discard (value e)
    | .print [] => do print ((← get).record ++ "\n")
    | .print es => do
      let shown := (← values es).map Value.toText
      print ((← variable_ "OFS").toText.intercalate shown ++ "\n")
    | .format es => do
      match (← values es).map Value.toText with
      | format :: arguments => print (String.ofList (Format.print format arguments).text)
      | [] => refuse "no format"
    | .block ss => ss.forM (statement fuel)
    | .choice c yes no => do statement fuel (if (← value c).holds then yes else no)
    | .loop c body => do
      if (← value c).holds then
        statement fuel body
        statement fuel (.loop c body)
    | .next => throw .next
    | .exit => throw .exit

/-- How often statements are repeated at most. -/
def limit : Nat := 1000000

def ruleActions (rules : List Rule) : Run Unit :=
  rules.forM fun r => do
    match r.selection with
    | .always => statement limit r.action
    | .when_ e => do if (← value e).holds then statement limit r.action
    | .first | .last => pure ()

def program (rules : List Rule) (records : List String) : Run Unit := do
  let ends (wanted : Selection → Bool) : Run Unit :=
    rules.forM fun r => do if wanted r.selection then statement limit r.action
  let body : Run Unit := do
    ends fun s => s matches .first
    (records.zipIdx 1).forM fun (text, n) => do
      setVariable "NR" (.number n)
      setRecord text
      try ruleActions rules
      catch
        | .next => pure ()
        | stop => throw stop
  try body
  catch
    | .error reason => throw (.error reason)
    | _ => pure ()
  ends fun s => s matches .last

end Run

end Records

/-- Runs a program on the records of texts. -/
def awk : Utility :=
  withOptions "" "Fv" (fun name o s =>
    let given := (o.values 'v').map fun v =>
      let front := v.toList.takeWhile (· ≠ '=')
      (String.ofList front, Records.Value.given (String.ofList (v.toList.drop (front.length + 1))))
    let separator := (o.value? 'F').getD " "
    let known := given ++ [("FS", .text separator), ("OFS", .text " ")]
    match o.operands with
    | [] => missing name "operand" s
    | source :: files =>
      match Records.rulesOf source with
      | .error reason => s.fail (name ++ ": " ++ reason) 2
      | .ok rules =>
        let complain (file reason : String) : String :=
          "cannot open \"" ++ file ++ "\" (" ++ reason ++ ")"
        let (s, texts) := s.readAll name complain files
        let records := texts.flatMap linesOf
        match (Records.Run.program rules records).run.run { known := known } with
        | (.error (.error reason), m) => (s.print m.output).fail (name ++ ": " ++ reason) 2
        | (_, m) => s.print m.output) 2

end FpgaProject.Shell
