/-!
Numbers that are worked out.

A formula has the operators of whole numbers with 64 bits, which wrap around; variables in it have
numbers as values, and it may give them new ones. What is behind a condition that decides already is
not worked out.
-/

namespace FpgaProject.Shell

inductive Operator where
  | times
  | over
  | rest
  | plus
  | minus
  | left
  | right
  | less
  | atMost
  | more
  | atLeast
  | equal
  | unequal
  | and
  | xor
  | or
deriving DecidableEq, Repr

inductive Formula where
  | number (n : Int)
  | named (s : String)
  | negative (a : Formula)
  | negation (a : Formula)
  | complement (a : Formula)
  | binary (o : Operator) (a b : Formula)
  | both (a b : Formula)
  | either (a b : Formula)
  | choice (a b c : Formula)
  | assign (name : String) (o : Option Operator) (a : Formula)
deriving DecidableEq, Repr

/-- A number with 64 bits. -/
def wrapped (n : Int) : Int :=
  Int.bmod n 18446744073709551616

/-- The number without a sign that has the same bits. -/
def bits (n : Int) : Nat :=
  (n % 18446744073709551616).toNat

def ofCondition (p : Prop) [Decidable p] : Int :=
  if p then 1 else 0

/-- What an operator gives; nothing if it divides by zero. -/
def Operator.apply (o : Operator) (a b : Int) : Option Int :=
  match o with
  | .times => some (wrapped (a * b))
  | .over => if b = 0 then none else some (wrapped (a.tdiv b))
  | .rest => if b = 0 then none else some (a.tmod b)
  | .plus => some (wrapped (a + b))
  | .minus => some (wrapped (a - b))
  | .left => some (wrapped (a * Nat.pow 2 (bits b % 64)))
  | .right => some (a / Nat.pow 2 (bits b % 64))
  | .less => some (ofCondition (a < b))
  | .atMost => some (ofCondition (a ≤ b))
  | .more => some (ofCondition (b < a))
  | .atLeast => some (ofCondition (b ≤ a))
  | .equal => some (ofCondition (a = b))
  | .unequal => some (ofCondition (a ≠ b))
  | .and => some (wrapped (Nat.land (bits a) (bits b)))
  | .xor => some (wrapped (Nat.xor (bits a) (bits b)))
  | .or => some (wrapped (Nat.lor (bits a) (bits b)))

/-! ### Reading numbers -/

/-- The digits of a number at the front of a text, with the base that their start tells: a leading
zero means base eight, and `0x` base sixteen. -/
def baseOf : List Char → Nat × List Char
  | '0' :: x :: d :: s =>
    if (x = 'x' || x = 'X') && (d.isDigit || ('a' ≤ d.toLower && d.toLower ≤ 'f')) then (16, d :: s)
    else (8, '0' :: x :: d :: s)
  | '0' :: s => (8, '0' :: s)
  | s => (10, s)

def digitValue? (c : Char) : Option Nat :=
  if c.isDigit then some (c.toNat - 48)
  else if 'a' ≤ c.toLower && c.toLower ≤ 'z' then some (c.toLower.toNat - 87)
  else none

def isDigitIn (base : Nat) (c : Char) : Bool :=
  (digitValue? c).any (· < base)

def ofDigits (base : Nat) (digits : List Char) : Nat :=
  digits.foldl (fun n c => n * base + (digitValue? c).getD 0) 0

/-- The number without a sign at the front of a text, with what is left. -/
def readDigits (s : List Char) : Nat × List Char :=
  let (base, s) := baseOf s
  let digits := s.takeWhile (isDigitIn base)
  (ofDigits base digits, s.drop digits.length)

def isNumberBlank (c : Char) : Bool :=
  c = ' ' || (9 ≤ c.toNat && c.toNat ≤ 13)

def numberRange : Int × Int :=
  (-9223372036854775808, 9223372036854775807)

/-- The number in a text, with blanks around it. If it is `marked`, its base depends on its start,
and nothing counts as zero. -/
def numberOf? (marked : Bool) (s : String) : Option Int :=
  let s := s.toList.dropWhile isNumberBlank
  let (negative, digits) := match s with
    | '-' :: s => (true, s)
    | '+' :: s => (false, s)
    | s => (false, s)
  let (n, left) :=
    if marked then readDigits digits
    else
      let taken := digits.takeWhile Char.isDigit
      (ofDigits 10 taken, digits.drop taken.length)
  let value : Int := if negative then -n else n
  let missing := left.length = digits.length
  let left := if missing then s else left
  if left.all isNumberBlank && (marked || !missing) &&
      decide (numberRange.1 ≤ value ∧ value ≤ numberRange.2) then
    some value
  else none

/-! ### Reading formulas -/

inductive FormulaToken where
  | number (n : Int)
  | name (s : String)
  | sign (s : String)
deriving DecidableEq, Repr

def formulaSigns : List String :=
  ["<<=", ">>=", "<<", ">>", "<=", ">=", "==", "!=", "&&", "||", "*=", "/=", "%=", "+=", "-=", "&=",
    "^=", "|=", "=", "<", ">", "!", "&", "|", "*", "/", "%", "+", "-", "~", "^", "?", ":", "(", ")"]

/-- The tokens of a formula, at most `fuel` of them. An unknown character ends in a sign that fits
nowhere. -/
def formulaTokens : Nat → List Char → List FormulaToken
  | 0, _ => []
  | _, [] => []
  | fuel + 1, c :: s =>
    if c = ' ' || c = '\t' || c = '\n' then formulaTokens fuel s
    else if c.isDigit then
      let (n, rest) := readDigits (c :: s)
      .number (min n numberRange.2) :: formulaTokens fuel rest
    else if c.isAlpha || c = '_' then
      let name := (c :: s).takeWhile fun c => c.isAlphanum || c = '_'
      .name (String.ofList name) :: formulaTokens fuel ((c :: s).drop name.length)
    else
      match formulaSigns.find? fun sign => sign.toList.isPrefixOf (c :: s) with
      | some sign => .sign sign :: formulaTokens fuel ((c :: s).drop sign.length)
      | none => [.sign (String.singleton c)]

abbrev FormulaReader (α : Type) := List FormulaToken → Except String (α × List FormulaToken)

def operatorLevels : List (List (String × Operator)) :=
  [[("|", .or)], [("^", .xor)], [("&", .and)], [("==", .equal), ("!=", .unequal)],
    [("<", .less), ("<=", .atMost), (">", .more), (">=", .atLeast)],
      [("<<", .left), (">>", .right)],
    [("+", .plus), ("-", .minus)], [("*", .times), ("/", .over), ("%", .rest)]]

/-- The signs that give a variable a new value. -/
def assignments : List (String × Option Operator) :=
  [("=", none), ("*=", some .times), ("/=", some .over), ("%=", some .rest), ("+=", some .plus),
    ("-=", some .minus), ("<<=", some .left), (">>=", some .right), ("&=", some .and),
    ("^=", some .xor), ("|=", some .or)]

namespace Formula

/-- A number, a variable, a formula in brackets, or one of these with signs in front. -/
def primary (whole : FormulaReader Formula) : FormulaReader Formula
  | .number n :: s => .ok (.number n, s)
  | .name x :: s => .ok (.named x, s)
  | .sign sign :: s =>
    if sign = "(" then do
      let (a, s) ← whole s
      match s with
      | .sign ")" :: s => .ok (a, s)
      | _ => .error "expecting ')'"
    else if sign = "+" then primary whole s
    else if sign = "-" then (primary whole s).map fun (a, s) => (.negative a, s)
    else if sign = "!" then (primary whole s).map fun (a, s) => (.negation a, s)
    else if sign = "~" then (primary whole s).map fun (a, s) => (.complement a, s)
    else .error "expecting primary"
  | [] => .error "expecting primary"

/-- Operands with operators of one level between them, at most `fuel` more of them. -/
def chain (operators : List (String × Operator)) (operand : FormulaReader Formula) :
    Nat → Formula → FormulaReader Formula
  | 0, a, s => .ok (a, s)
  | fuel + 1, a, s =>
    match s with
    | .sign sign :: rest =>
      match operators.lookup sign with
      | some o => do
        let (b, rest) ← operand rest
        chain operators operand fuel (.binary o a b) rest
      | none => .ok (a, s)
    | s => .ok (a, s)

def levels (whole : FormulaReader Formula) : List (List (String × Operator)) → FormulaReader Formula
  | [] => primary whole
  | operators :: tighter => fun s => do
    let (a, s) ← levels whole tighter s
    chain operators (levels whole tighter) s.length a s

/-- Conditions of which all must hold, at most `fuel` more of them. -/
def conjunction (whole : FormulaReader Formula) : Nat → FormulaReader Formula
  | 0, _ => .error "expecting EOF"
  | fuel + 1, s => do
    let (a, s) ← levels whole operatorLevels s
    match s with
    | .sign "&&" :: s => do
      let (b, s) ← conjunction whole fuel s
      .ok (.both a b, s)
    | s => .ok (a, s)

/-- Conditions of which one must hold, at most `fuel` more of them. -/
def disjunction (whole : FormulaReader Formula) : Nat → FormulaReader Formula
  | 0, _ => .error "expecting EOF"
  | fuel + 1, s => do
    let (a, s) ← conjunction whole (fuel + 1) s
    match s with
    | .sign "||" :: s => do
      let (b, s) ← disjunction whole fuel s
      .ok (.either a b, s)
    | s => .ok (a, s)

/-- A choice, at most `fuel` more of them behind it, or a formula without one. -/
def choices (whole : FormulaReader Formula) : Nat → FormulaReader Formula
  | 0, _ => .error "expecting EOF"
  | fuel + 1, s => do
    let (a, s) ← disjunction whole (fuel + 1) s
    match s with
    | .sign "?" :: s => do
      let (b, s) ← whole s
      match s with
      | .sign ":" :: s => do
        let (c, s) ← choices whole fuel s
        .ok (.choice a b c, s)
      | _ => .error "expecting ':'"
    | s => .ok (a, s)

/-- A formula, which may give a variable a new value, nested at most as deep as `fuel` says. -/
def reader : Nat → FormulaReader Formula
  | 0, _ => .error "expecting EOF"
  | fuel + 1, s =>
    match s with
    | .name x :: .sign sign :: rest =>
      match assignments.lookup sign with
      | some o => do
        let (a, rest) ← reader fuel rest
        .ok (.assign x o a, rest)
      | none => choices (reader fuel) (s.length + 1) s
    | s => choices (reader fuel) (s.length + 1) s

def ofText (s : String) : Except String Formula :=
  let tokens := formulaTokens s.length s.toList
  match reader (tokens.length + 1) tokens with
  | .ok (a, []) => .ok a
  | .ok _ => .error "expecting EOF"
  | .error reason => .error reason

/-! ### Working out -/

/-- What a formula needs to know and to change, in a monad. -/
structure Surroundings (m : Type → Type) where
  get : String → m Int
  set : String → Int → m Unit
  divisionByZero : m Int

def value {m : Type → Type} [Monad m] (x : Surroundings m) : Formula → m Int
  | .number n => pure n
  | .named s => x.get s
  | .negative a => do pure (wrapped (-(← value x a)))
  | .negation a => do pure (ofCondition ((← value x a) = 0))
  | .complement a => do pure (-(← value x a) - 1)
  | .binary o a b => do
    let a ← value x a
    let b ← value x b
    match o.apply a b with
    | some n => pure n
    | none => x.divisionByZero
  | .both a b => do
    if (← value x a) = 0 then pure 0 else pure (ofCondition ((← value x b) ≠ 0))
  | .either a b => do
    if (← value x a) ≠ 0 then pure 1 else pure (ofCondition ((← value x b) ≠ 0))
  | .choice a b c => do
    if (← value x a) ≠ 0 then value x b else value x c
  | .assign name o a => do
    let a ← value x a
    let n ← match o with
      | none => pure a
      | some o => do
        match o.apply (← x.get name) a with
        | some n => pure n
        | none => x.divisionByZero
    x.set name n
    pure n

end Formula

end FpgaProject.Shell
