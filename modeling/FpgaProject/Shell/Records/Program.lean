import FpgaProject.Shell.Command
import FpgaProject.Shell.Format
import FpgaProject.Shell.Regex

/-!
Programs that work on records.

A program has rules, each with a pattern and an action. An operator is kept as it is written; values
that stand side by side are joined, which is the operator without a sign.
-/

namespace FpgaProject.Shell.Records

inductive Expression where
  | number (n : Int)
  | text (s : String)
  | like (r : Regex)
  | variable_ (name : String)
  | element (array : String) (place : Expression)
  | field (place : Expression)
  | assign (goal value : Expression)
  | step (change : Int) (goal : Expression)
  | not (e : Expression)
  | negate (e : Expression)
  | binary (operator : String) (a b : Expression)
  | call (name : String) (arguments : List Expression)

inductive Statement where
  | value (e : Expression)
  | print (es : List Expression)
  | format (es : List Expression)
  | block (ss : List Statement)
  | choice (condition : Expression) (yes no : Statement)
  | loop (condition : Expression) (body : Statement)
  | next
  | exit

/-- When a rule applies: in front of all records, behind them, to each of them, or to those for which
something holds. -/
inductive Selection where
  | first
  | last
  | always
  | when_ (e : Expression)

structure Rule where
  selection : Selection
  action : Statement

/-! ### Words of programs -/

inductive Token where
  | number (n : Int)
  | text (s : String)
  | like (s : String)
  | name (s : String)
  | sign (s : String)
  | newline
deriving DecidableEq, Repr

def signs : List String :=
  ["++", "--", "+=", "-=", "==", "<=", ">=", "!=", "!~", "&&", "||"] ++
    ["\x7b", "\x7d", "(", ")", "[", "]", ";", ",", "+", "-", "*", "/", "%", "!", ">", "<", "~", "$",
      "="]

/-- Whether a value may end with a word, so that a slash behind it divides. -/
def Token.endsValue : Token → Bool
  | .sign s => s = ")" || s = "]"
  | .newline => false
  | _ => true

/-- The words of a program, at most `fuel` of them; `before` is the one in front. -/
def tokens : Nat → Option Token → List Char → Except String (List Token)
  | 0, _, _ | _, _, [] => .ok []
  | fuel + 1, before, c :: s => do
    let behind (t : Token) (rest : List Char) : Except String (List Token) := do
      .ok (t :: (← tokens fuel (some t) rest))
    if c = '\n' then behind .newline s
    else if c = ' ' || c = '\t' then tokens fuel before s
    else if c = '#' then tokens fuel before (s.dropWhile (· ≠ '\n'))
    else if c = '"' then
      match delimited '"' s with
      | some (t, rest) => behind (.text (String.ofList (Format.escaped (String.ofList t)).1)) rest
      | none => .error "runaway string constant"
    else if c.isDigit then
      let digits := (c :: s).takeWhile Char.isDigit
      behind (.number (ofDigits 10 digits)) ((c :: s).drop digits.length)
    else if isNameStart c then
      let name := (c :: s).takeWhile isNameChar
      behind (.name (String.ofList name)) ((c :: s).drop name.length)
    else if c = '/' && !before.any Token.endsValue then
      match delimited '/' s with
      | some (t, rest) => behind (.like (String.ofList t)) rest
      | none => .error "runaway regular expression"
    else
      match signs.find? fun w => w.toList.isPrefixOf (c :: s) with
      | some w => behind (.sign w) ((c :: s).drop w.length)
      | none => .error ("unexpected character '" ++ String.singleton c ++ "'")

/-! ### Reading -/

abbrev Taking := StateT (List Token) (Except String)

namespace Taking

def refuse {α : Type} : Taking α :=
  throw "syntax error"

def accept (t : Token) : Taking Bool := do
  match ← get with
  | u :: rest =>
    if u = t then
      set rest
      pure true
    else pure false
  | [] => pure false

def sign (s : String) : Taking Unit := do
  if !(← accept (.sign s)) then refuse

/-- Passes over ends of lines and semicolons. -/
def ends : Taking Unit :=
  modify (·.dropWhile fun t => t = .newline || t = .sign ";")

/-- The operators, those that bind least first. -/
def levels : Array (List String) :=
  #[["||"], ["&&"], ["~", "!~"], ["<", "<=", "==", "!=", ">", ">="], [""], ["+", "-"],
    ["*", "/", "%"]]

/-- The operator of a level that is next; between values that are joined there is none. -/
def operator? (level : List String) : Taking (Option String) := do
  match ← get with
  | .sign s :: rest =>
    if level.contains s then
      set rest
      pure (some s)
    else pure (if level = [""] && (s = "$" || s = "(") then some "" else none)
  | .number _ :: _ | .text _ :: _ | .name _ :: _ => pure (if level = [""] then some "" else none)
  | _ => pure none

mutual

/-- An expression with operators from a level on, nested at most as deep as `fuel` says. -/
def expression : Nat → Nat → Taking Expression
  | 0, _ => refuse
  | fuel + 1, n =>
    if n < levels.size then do behind fuel n (← expression fuel (n + 1)) else operand fuel

/-- An expression whose first value has been read. -/
def behind : Nat → Nat → Expression → Taking Expression
  | 0, _, a => pure a
  | fuel + 1, n, a => do
    match ← operator? (levels.getD n []) with
    | some o => do behind fuel n (.binary o a (← expression fuel (n + 1)))
    | none => pure a

/-- A value, with what is done to it if it can be assigned to. -/
def operand : Nat → Taking Expression
  | 0 => refuse
  | fuel + 1 => do
    match ← primary fuel with
    | .field e => assigned fuel (.field e)
    | .element a e => assigned fuel (.element a e)
    | .variable_ s => assigned fuel (.variable_ s)
    | e => pure e

def primary : Nat → Taking Expression
  | 0 => refuse
  | fuel + 1 => do
    let before ← get
    set before.tail
    match before with
    | .number n :: _ => pure (.number n)
    | .text s :: _ => pure (.text s)
    | .like s :: _ => pure (.like (← (Regex.ofText true s : Except String Regex)))
    | .sign "!" :: _ => do pure (.not (← operand fuel))
    | .sign "-" :: _ => do pure (.negate (← operand fuel))
    | .sign "(" :: _ => do
      let e ← expression fuel 0
      sign ")"
      pure e
    | .sign "$" :: _ => do pure (.field (← primary fuel))
    | .name s :: _ => do
      if ← accept (.sign "(") then pure (.call s (← list fuel))
      else if ← accept (.sign "[") then do
        let place ← expression fuel 0
        sign "]"
        pure (.element s place)
      else pure (.variable_ s)
    | _ => refuse

/-- Something that can be assigned to, with what is done to it. -/
def assigned : Nat → Expression → Taking Expression
  | 0, goal => pure goal
  | fuel + 1, goal => do
    if ← accept (.sign "=") then pure (.assign goal (← expression fuel 0))
    else if ← accept (.sign "+=") then
      pure (.assign goal (.binary "+" goal (← expression fuel 0)))
    else if ← accept (.sign "-=") then
      pure (.assign goal (.binary "-" goal (← expression fuel 0)))
    else if ← accept (.sign "++") then pure (.step 1 goal)
    else if ← accept (.sign "--") then pure (.step (-1) goal)
    else pure goal

def list : Nat → Taking (List Expression)
  | 0 => refuse
  | fuel + 1 => do
    if ← accept (.sign ")") then pure []
    else
      let e ← expression fuel 0
      if ← accept (.sign ",") then pure (e :: (← list fuel))
      else
        sign ")"
        pure [e]

end

/-- What is printed: expressions up to the end of a statement. -/
def printed : Nat → Taking (List Expression)
  | 0 => refuse
  | fuel + 1 => do
    match ← get with
    | [] | .newline :: _ | .sign ";" :: _ | .sign "\x7d" :: _ => pure []
    | _ => do
      let e ← expression fuel 0
      if ← accept (.sign ",") then pure (e :: (← printed fuel)) else pure [e]

mutual

/-- A statement, nested at most as deep as `fuel` says. -/
def statement : Nat → Taking Statement
  | 0 => refuse
  | fuel + 1 => do
    let condition : Taking Expression := do
      sign "("
      let e ← expression fuel 0
      sign ")"
      pure e
    if ← accept (.sign "\x7b") then pure (.block (← statements fuel))
    else if ← accept (.name "print") then pure (.print (← printed fuel))
    else if ← accept (.name "printf") then pure (.format (← printed fuel))
    else if ← accept (.name "next") then pure .next
    else if ← accept (.name "exit") then pure .exit
    else if ← accept (.name "if") then do
      let c ← condition
      ends
      let yes ← statement fuel
      let behind ← get
      ends
      if ← accept (.name "else") then do
        ends
        pure (.choice c yes (← statement fuel))
      else do
        set behind
        pure (.choice c yes (.block []))
    else if ← accept (.name "while") then do
      let c ← condition
      ends
      pure (.loop c (← statement fuel))
    else if ← accept (.name "for") then do
      sign "("
      let first ← expression fuel 0
      sign ";"
      let c ← expression fuel 0
      sign ";"
      let each ← expression fuel 0
      sign ")"
      ends
      let body ← statement fuel
      pure (.block [.value first, .loop c (.block [body, .value each])])
    else pure (.value (← expression fuel 0))

def statements : Nat → Taking (List Statement)
  | 0 => refuse
  | fuel + 1 => do
    ends
    if ← accept (.sign "\x7d") then pure []
    else do
      let s ← statement fuel
      pure (s :: (← statements fuel))

end

/-- The rules of a program. One without an action prints the record. -/
def rules : Nat → Taking (List Rule)
  | 0 => refuse
  | fuel + 1 => do
    ends
    match ← get with
    | [] => pure []
    | t :: _ => do
      let selection : Selection ←
        if ← accept (.name "BEGIN") then pure .first
        else if ← accept (.name "END") then pure .last
        else if t = .sign "\x7b" then pure .always
        else pure (.when_ (← expression fuel 0))
      let action ←
        if ← accept (.sign "\x7b") then pure (.block (← statements fuel)) else pure (.print [])
      pure (⟨selection, action⟩ :: (← rules fuel))

end Taking

def rulesOf (source : String) : Except String (List Rule) := do
  let ts ← tokens (source.length + 1) none source.toList
  let (rules, _) ← (Taking.rules (10 * (ts.length + 1))).run ts
  .ok rules

end FpgaProject.Shell.Records
