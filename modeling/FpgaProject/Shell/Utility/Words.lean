import FpgaProject.Shell.Format
import FpgaProject.Shell.Regex
import FpgaProject.Shell.Utility.Basic

/-!
Programs that work on words and numbers.
-/

namespace FpgaProject.Shell

/-- Prints its words with blanks between them, and what is written behind backslashes in them. -/
def echo : Utility := fun _ args s =>
  let (args, behind) := if args.head? = some "-n" then (args.tail, "") else (args, "\n")
  let (text, isEnded) := Format.escaped (" ".intercalate args)
  s.print (String.ofList text ++ if isEnded then "" else behind)

def printf : Utility := fun _ args s =>
  match if args.head? = some "--" then args.tail else args with
  | [] => s.fail "usage: printf format [arg ...]" 2
  | format :: arguments =>
    let o := Format.print format arguments
    (o.complaints.foldl (fun (s : Session) c => s.fail c) s).print (String.ofList o.text)

def nothing (status : Nat) : Utility := fun _ _ s =>
  { s with status := status }

def basename : Utility :=
  withOptions "" "" fun name o s =>
    match o.operands with
    | [] => missing name "operand" s
    | arg :: more =>
      let last := lastName arg
      let suffix := more.headD ""
      s.printLine <|
        if last.endsWith suffix && last ≠ suffix then
          String.ofList (last.toList.take (last.length - suffix.length))
        else last

def dirname : Utility :=
  withOptions "" "" fun name o s =>
    if o.operands.isEmpty then missing name "operand" s
    else s.print (unlines (o.operands.map aboveName))

/-! ### Working out words -/

namespace Expression

def ofBool (b : Bool) : String :=
  if b then "1" else "0"

def isNull (s : String) : Bool :=
  s.isEmpty || wholeNumber? s = some 0

/-- What an expression matches at the front of a text: the first group, or the number of
characters. -/
def matched (text pattern : String) : Except String String := do
  let r ← Regex.ofText false pattern
  let text := text.toList.toArray
  let hasGroup := (pattern.splitOn "\\(").length ≠ 1
  match r.matchAt? text 0 with
  | none => .ok (if hasGroup then "" else "0")
  | some f =>
    match f.groups.lookup 1 with
    | some (first, last) => .ok (stretchOf text first last)
    | none => .ok (if hasGroup then "" else toString f.last)

def combine (operator a b : String) : Except String String :=
  let compared (p : Ordering → Bool) : Except String String :=
    .ok <| ofBool <| p <| match wholeNumber? a, wholeNumber? b with
      | some m, some n => compare m n
      | _, _ => compare a b
  let worked (f : Int → Int → Int) : Except String String :=
    match wholeNumber? a, wholeNumber? b with
    | some m, some n =>
      if (operator = "/" || operator = "%") && n = 0 then .error "division by zero"
      else .ok (toString (f m n))
    | _, _ => .error "non-integer argument"
  match operator with
  | "|" => .ok (if isNull a then if isNull b then "0" else b else a)
  | "&" => .ok (if isNull a || isNull b then "0" else a)
  | "=" => compared (· = .eq)
  | "!=" => compared (· ≠ .eq)
  | "<" => compared (· = .lt)
  | "<=" => compared Ordering.isLE
  | ">" => compared (· = .gt)
  | ">=" => compared Ordering.isGE
  | "+" => worked fun m n => m + n
  | "-" => worked fun m n => m - n
  | "*" => worked fun m n => m * n
  | "/" => worked Int.tdiv
  | "%" => worked Int.tmod
  | _ => matched a b

/-- The operators, those that bind least first. -/
def levels : List (List String) :=
  [["|"], ["&"], ["=", "!=", "<", "<=", ">", ">="], ["+", "-"], ["*", "/", "%"], [":"]]

/-- The value of the expression at the front of words, nested at most as deep as `fuel` says. -/
def value : Nat → List (List String) → List String → Except String (String × List String)
  | 0, _, _ | _, [], [] => .error "syntax error"
  | fuel + 1, [], "(" :: ws => do
    match ← value fuel levels ws with
    | (a, ")" :: ws) => .ok (a, ws)
    | _ => .error "syntax error"
  | _ + 1, [], w :: ws => .ok (w, ws)
  | fuel + 1, operators :: tighter, ws => do
    let (a, ws) ← value fuel tighter ws
    go fuel operators tighter ws.length a ws
where
  /-- Goes on behind a value as long as an operator of the same level follows. -/
  go (fuel : Nat) (operators : List String) (tighter : List (List String)) :
      Nat → String → List String → Except String (String × List String)
    | 0, a, ws => .ok (a, ws)
    | n + 1, a, ws =>
      match ws with
      | operator :: more =>
        if operators.contains operator then do
          let (b, ws) ← value fuel tighter more
          go fuel operators tighter n (← combine operator a b) ws
        else .ok (a, ws)
      | [] => .ok (a, [])

end Expression

def expr : Utility := fun name args s =>
  match Expression.value (7 * (args.length + 1)) Expression.levels args with
  | .ok (a, []) => { s.printLine a with status := if Expression.isNull a then 1 else 0 }
  | .ok (_, w :: _) => s.fail (name ++ ": syntax error: unexpected argument " ++ inQuotes w) 2
  | .error reason => s.fail (name ++ ": " ++ reason) 2

end FpgaProject.Shell
