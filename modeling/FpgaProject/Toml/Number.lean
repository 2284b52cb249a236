import FpgaProject.Toml.Quoted

/-!
Numbers, dates and times.

An integer has 64 bits. A decimal fraction becomes the nearest binary number and is refused if it is
too large; the words `inf` and `nan` are numbers too. Single underscores may stand between digits.
A date or a time is checked field by field and kept in its one written form.
-/

namespace FpgaProject.Toml

open Text Text.Reader

/-- A sign in front of a number: whether it is a minus. -/
def sign : Reader (Option Bool) :=
  optional (firstOf [(do char '-'; pure true), (do char '+'; pure false)])

def digits (p : Char → Bool) : Reader (List Char) := do
  let first ← satisfying p
  let others ← repeated (firstOf [satisfying p, (do char '_'; satisfying p)])
  pure (first :: others)

/-- The digits of a decimal integer; only zero itself starts with a zero. -/
def wholeDigits : Reader (List Char) := do
  if (← peek?) = some '0' then
    char '0'
    pure ['0']
  else digits Char.isDigit

def integerBounds : Int × Int :=
  (-9223372036854775808, 9223372036854775807)

def bounded (n : Int) : Reader Scalar :=
  if integerBounds.1 ≤ n ∧ n ≤ integerBounds.2 then pure (.integer n) else refuse

def basedInteger : Reader Scalar := do
  char '0'
  let (base, p) ← firstOf [
    (do char 'x'; pure (16, isHexDigit)),
    (do char 'o'; pure (8, fun c => '0' ≤ c && c ≤ '7')),
    (do char 'b'; pure (2, fun c => c = '0' || c = '1'))]
  bounded (numberOf base (← digits p))

def decimalInteger : Reader Scalar := do
  let negative := (← sign).getD false
  let n : Int := numberOf 10 (← wholeDigits)
  bounded (if negative then -n else n)

def powerOfTen : Reader Int := do
  let _ ← firstOf [char 'e', char 'E']
  let negative := (← sign).getD false
  let n : Int := numberOf 10 (← digits Char.isDigit)
  pure (if negative then -n else n)

def places : Reader (List Char) := do
  char '.'
  digits Char.isDigit

/-- A number with a point, a power of ten or both. -/
def decimalFraction : Reader Scalar := do
  let negative := (← sign).getD false
  let whole ← wholeDigits
  let behind ← optional places
  let power ← optional powerOfTen
  if behind.isNone && power.isNone then refuse
  else
    let fraction := behind.getD []
    let exponent := power.getD 0 - fraction.length
    let x := Binary64.ofDecimal negative (numberOf 10 (whole ++ fraction)) exponent
    if x = Binary64.infinity false then refuse else pure (.real x)

def namedNumber : Reader Scalar := do
  let negative := (← sign).getD false
  firstOf [
    (do chars ['i', 'n', 'f']; pure (.real (Binary64.infinity negative))),
    (do chars ['n', 'a', 'n']; pure (.real Binary64.notANumber))]

/-! ### Dates and times -/

/-- A number of exactly so many digits between two bounds, and the digits. -/
def field (count low high : Nat) : Reader (List Char) := do
  let s ← exactly Char.isDigit count
  let n := numberOf 10 s
  if low ≤ n ∧ n ≤ high then pure s else refuse

def date : Reader (List Char) := do
  let year ← field 4 0 9999
  char '-'
  let month ← field 2 1 12
  char '-'
  let day ← field 2 1 31
  pure (year ++ '-' :: month ++ '-' :: day)

/-- The part of a second, up to nine places, without zeros at the end. -/
def secondPart : Reader (List Char) := do
  char '.'
  let kept := (← run1 Char.isDigit).take 9
  let significant := (kept.reverse.dropWhile (· = '0')).reverse
  pure (if significant = [] then [] else '.' :: significant)

def time : Reader (List Char) := do
  let hour ← field 2 0 23
  char ':'
  let minute ← field 2 0 59
  char ':'
  let second ← field 2 0 60
  let part := (← optional secondPart).getD []
  pure (hour ++ ':' :: minute ++ ':' :: second ++ part)

/-- The distance of a time from universal time; no distance has a plus sign. -/
def offset : Reader (List Char) :=
  firstOf [
    (do let _ ← firstOf [char 'Z', char 'z']; pure ['Z']),
    (do
      let s ← firstOf [(do char '+'; pure '+'), (do char '-'; pure '-')]
      let hour ← field 2 0 23
      char ':'
      let minute ← field 2 0 59
      let isZero := (hour ++ minute).all (· = '0')
      pure ((if isZero then '+' else s) :: hour ++ ':' :: minute))]

/-- A time after a date, and its distance from universal time if that is given. -/
def timeOfDate : Reader (List Char) := do
  let _ ← firstOf [char 'T', char 't', char ' ']
  let t ← time
  let o ← optional offset
  pure ('T' :: t ++ o.getD [])

def moment : Reader Scalar := do
  let s ← firstOf [
    (do
      let d ← date
      let t ← optional timeOfDate
      pure (d ++ t.getD [])),
    time]
  pure (.moment (String.ofList s))

def number : Reader Scalar :=
  firstOf [moment, decimalFraction, namedNumber, basedInteger, decimalInteger]

end FpgaProject.Toml
