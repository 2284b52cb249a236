import FpgaProject.Decimal.Binary64
import FpgaProject.Shell.Formula

/-!
Printing in a format.

A format has places for arguments in it, each with signs that say how the argument is shown, a width
and a precision. It is used again until no argument is left. Numbers with a fraction are rounded
from their exact binary value.
-/

namespace FpgaProject.Shell

namespace Format

/-! ### Characters behind a backslash -/

/-- The control that a letter stands for behind a backslash. -/
def control? : Char → Option Char
  | 'n' => some '\n'
  | 't' => some '\t'
  | 'r' => some '\r'
  | 'a' => some '\x07'
  | 'b' => some '\x08'
  | 'f' => some '\x0c'
  | 'v' => some '\x0b'
  | '\\' => some '\\'
  | _ => none

/-- The digits in base eight at the front of a text, at most three. -/
def octalDigits (s : List Char) : List Char :=
  (s.take 3).takeWhile fun c => '0' ≤ c && c ≤ '7'

def octalByte (digits : List Char) : Char :=
  Char.ofNat (ofDigits 8 digits % 256)

/-- What stands behind a backslash, with what is left: at most three digits, or a letter for a
control. -/
def escape (s : List Char) : List Char × List Char :=
  match octalDigits s, s with
  | [], c :: rest =>
    match control? c with
    | some x => ([x], rest)
    | none => (['\\', c], rest)
  | [], [] => (['\\'], [])
  | digits, s => ([octalByte digits], s.drop digits.length)

/-- A text with what is written behind its backslashes, at most `fuel` parts of it, and whether it
asks for the end of all output. -/
def escapedUpTo : Nat → List Char → List Char × Bool
  | 0, _ | _, [] => ([], false)
  | _ + 1, '\\' :: 'c' :: _ => ([], true)
  | fuel + 1, '\\' :: s =>
    let (part, rest) := match s with
      | '0' :: rest =>
        let digits := octalDigits rest
        ([octalByte digits], rest.drop digits.length)
      | s => escape s
    let (text, isEnded) := escapedUpTo fuel rest
    (part ++ text, isEnded)
  | fuel + 1, c :: s =>
    let (text, isEnded) := escapedUpTo fuel s
    (c :: text, isEnded)

/-- A text with what is written behind its backslashes. -/
def escaped (s : String) : List Char × Bool :=
  escapedUpTo s.length s.toList

/-! ### Places for arguments -/

/-- A piece of a format: text, or a place for an argument, as it is written and what that means. -/
inductive Piece where
  | text (s : List Char)
  | place (written : String) (signs : List Char) (width : Nat) (precision : Option Nat)
      (letter : Char)
deriving DecidableEq, Repr

/-- The pieces of a format, at most `fuel` of them. -/
def pieces : Nat → List Char → List Piece
  | 0, _ | _, [] => []
  | fuel + 1, '\\' :: s =>
    let (part, rest) := escape s
    .text part :: pieces fuel rest
  | fuel + 1, '%' :: '%' :: s => .text ['%'] :: pieces fuel s
  | fuel + 1, '%' :: s =>
    let signs := s.takeWhile ['-', '+', '0'].contains
    let digits := (s.drop signs.length).takeWhile Char.isDigit
    let (precision, rest) := match s.drop (signs.length + digits.length) with
      | '.' :: rest => (some (rest.takeWhile Char.isDigit), rest.dropWhile Char.isDigit)
      | rest => (none, rest)
    let written := s.take (s.length - rest.length + 1)
    .place (String.ofList ('%' :: written)) signs (ofDigits 10 digits)
      (precision.map (ofDigits 10)) (rest.headD '\x00') :: pieces fuel rest.tail
  | fuel + 1, c :: s => .text [c] :: pieces fuel s

/-! ### Showing arguments -/

/-- A text up to a width, on the left or on the right, or with zeros behind its sign. -/
def padded (signs : List Char) (width : Nat) (zeros : Bool) (sign body : List Char) : List Char :=
  let gap := width - (sign.length + body.length)
  if signs.contains '-' then sign ++ body ++ List.replicate gap ' '
  else if zeros && signs.contains '0' then sign ++ List.replicate gap '0' ++ body
  else List.replicate gap ' ' ++ sign ++ body

def signOf (signs : List Char) (isNegative : Bool) : List Char :=
  if isNegative then ['-'] else if signs.contains '+' then ['+'] else []

def whole (signs : List Char) (width : Nat) (precision : Option Nat) (letter : Char) (n : Int) :
    List Char :=
  let isSigned := letter = 'd' || letter = 'i'
  let base := if letter = 'o' then 8 else if letter = 'x' || letter = 'X' then 16 else 10
  let digits := Nat.toDigits base (if isSigned then n.natAbs else bits n)
  let digits := if letter = 'X' then digits.map Char.toUpper else digits
  let digits := List.replicate (precision.getD 0 - digits.length) '0' ++ digits
  padded signs width precision.isNone (if isSigned then signOf signs (n < 0) else []) digits

/-- The quotient of two naturals with some places behind the point. -/
def fixedDigits (num den places : Nat) : List Char :=
  let digits := Nat.toDigits 10 (Binary64.divideToNearest (num * Nat.pow 10 places) den)
  let digits := List.replicate (places + 1 - digits.length) '0' ++ digits
  let front := digits.take (digits.length - places)
  front ++ if places = 0 then [] else '.' :: digits.drop (digits.length - places)

def real (signs : List Char) (width : Nat) (precision : Option Nat) (x : Binary64) : List Char :=
  match x.decode with
  | .nan => padded signs width false [] "nan".toList
  | .infinite isNegative => padded signs width false (signOf signs isNegative) "inf".toList
  | .finite isNegative m q =>
    let num := if 0 ≤ q then m * Nat.pow 2 q.toNat else m
    let den := if 0 ≤ q then 1 else Nat.pow 2 (-q).toNat
    padded signs width true (signOf signs isNegative) (fixedDigits num den (precision.getD 6))

/-! ### Reading arguments -/

def signAt (s : List Char) : Bool × List Char :=
  match s.dropWhile isNumberBlank with
  | '-' :: s => (true, s)
  | '+' :: s => (false, s)
  | s => (false, s)

def wholeOf (s : List Char) : Int × List Char :=
  let (isNegative, digits) := signAt s
  let (n, left) := readDigits digits
  if left.length = digits.length then (0, s) else (if isNegative then -n else n, left)

/-- The number with a fraction at the front of a text, and what is left. -/
def realOf (s : List Char) : Binary64 × List Char :=
  let (isNegative, digits) := signAt s
  let front := digits.takeWhile Char.isDigit
  let (back, left) := match digits.drop front.length with
    | '.' :: rest => (rest.takeWhile Char.isDigit, rest.dropWhile Char.isDigit)
    | rest => ([], rest)
  if front = [] && back = [] then (.ofDecimal false 0 0, s)
  else (.ofDecimal isNegative (ofDigits 10 (front ++ back)) (-(back.length : Int)), left)

/-- What has come of a format: the text, the complaints, the arguments that are left, and whether it
is at its end. -/
structure Outcome where
  text : List Char := []
  complaints : List String := []
  left : List String := []
  isEnded : Bool := false

namespace Outcome

def add (o : Outcome) (s : List Char) : Outcome :=
  { o with text := o.text ++ s }

/-- Takes the next argument as a number, and complains if it is none up to its end. -/
def takeNumber {α : Type} (o : Outcome) (read : List Char → α × List Char) : α × Outcome :=
  let argument := o.left.headD "0"
  let (n, left) := read argument.toList
  let o := { o with left := o.left.tail }
  if left.isEmpty then (n, o)
  else
    let reason := if left.length = argument.length then "expected numeric value"
      else "not completely converted"
    (n, { o with complaints := o.complaints ++ [argument ++ ": " ++ reason] })

def fill (o : Outcome) : Piece → Outcome
  | .text s => if o.isEnded then o else o.add s
  | .place written signs width precision letter =>
    let argument := (o.left.headD "").toList
    let cut (s : List Char) : List Char := (precision.map s.take).getD s
    let next : Outcome := { o with left := o.left.tail }
    if o.isEnded then o
    else if letter = 's' then next.add (padded signs width false [] (cut argument))
    else if letter = 'b' then
      let (text, isEnded) := escaped (String.ofList argument)
      { next.add (padded signs width false [] (cut text)) with isEnded := isEnded }
    else if letter = 'c' then
      next.add (padded signs width false [] (if argument.isEmpty then ['\x00'] else argument.take 1))
    else if letter = 'f' then
      let (x, o) := o.takeNumber realOf
      o.add (real signs width precision x)
    else if ['d', 'i', 'o', 'u', 'x', 'X'].contains letter then
      let (n, o) := o.takeNumber wholeOf
      o.add (whole signs width precision letter n)
    else
      { o with isEnded := true, complaints := o.complaints ++ [written ++ ": invalid directive"] }

end Outcome

/-- Fills a format again and again until no argument is left, at most `fuel` times more. -/
def fillAll (ps : List Piece) : Nat → Outcome → Outcome
  | 0, o => ps.foldl Outcome.fill o
  | fuel + 1, o =>
    let filled := ps.foldl Outcome.fill o
    if filled.isEnded || filled.left = [] || filled.left.length = o.left.length then filled
    else fillAll ps fuel filled

def print (format : String) (arguments : List String) : Outcome :=
  fillAll (pieces format.length format.toList) arguments.length { left := arguments }

end Format

end FpgaProject.Shell
