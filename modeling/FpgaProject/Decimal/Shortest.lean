import FpgaProject.Decimal.Binary64

/-!
The shortest decimal text of a binary number.

`shortest` gives the fewest digits that read back as the number, and of those the nearest to it; an
exact tie goes up. `positional` writes digits and a power of ten without an exponent.
-/

namespace FpgaProject.Decimal

/-- A positive decimal `digits · 10^exponent`. -/
structure Scaled where
  digits : Nat
  exponent : Int
deriving DecidableEq, Repr

/-- The positive reals that round to a number, as a fraction: the number is `value / den`, and the
interval runs from `low / den` to `high / den`, ends included if `closed`. -/
structure Interval where
  low : Nat
  value : Nat
  high : Nat
  den : Nat
  closed : Bool
deriving Repr

/-- The reals that round to `m · 2^q`. Below a power of two the next number is half as far away. -/
def Interval.around (m : Nat) (q : Int) : Interval :=
  let below := if m = twoTo 52 && q ≠ -1074 then 1 else 2
  let scale := if 0 ≤ q - 2 then twoTo (q - 2).toNat else 1
  let den := if 0 ≤ q - 2 then 1 else twoTo (2 - q).toNat
  ⟨(4 * m - below) * scale, 4 * m * scale, (4 * m + 2) * scale, den, m % 2 == 0⟩

/-- The interval with `10^k` as the unit. -/
def Interval.inPowers (i : Interval) (k : Int) : Interval :=
  if 0 ≤ k then { i with den := i.den * tenTo k.toNat }
  else
    let f := tenTo (-k).toNat
    { i with low := i.low * f, value := i.value * f, high := i.high * f }

/-- Whether the natural `d` lies in the interval. -/
def Interval.holds (i : Interval) (d : Nat) : Bool :=
  if i.closed then i.low ≤ d * i.den && d * i.den ≤ i.high
  else i.low < d * i.den && d * i.den < i.high

/-- Of the two naturals next to the value, the one in the interval that is nearer, the upper one on
a tie. -/
def Interval.hit? (i : Interval) : Option Nat :=
  let d := i.value / i.den
  let up := i.holds (d + 1)
  if 0 < d && i.holds d then
    if up && i.den ≤ 2 * (i.value % i.den) then some (d + 1) else some d
  else if up then some (d + 1)
  else none

/-- Tries the powers of ten from `10^k` down. -/
def search (i : Interval) : Nat → Int → Scaled
  | 0, k => ⟨i.value / i.den, k⟩
  | fuel + 1, k =>
    match (i.inPowers k).hit? with
    | some d => ⟨d, k⟩
    | none => search i fuel (k - 1)

/-- The shortest decimal that reads back as `m · 2^q`, for positive `m`. -/
def shortest (m : Nat) (q : Int) : Scaled :=
  search (.around m q) 660 310

/-- A decimal without an exponent; no point if it is whole. -/
def Scaled.positional (x : Scaled) : List Char :=
  let digits := Nat.toDigits 10 x.digits
  if 0 ≤ x.exponent then digits ++ List.replicate x.exponent.toNat '0'
  else
    let places := (-x.exponent).toNat
    if places < digits.length then
      digits.take (digits.length - places) ++ '.' :: digits.drop (digits.length - places)
    else ['0', '.'] ++ List.replicate (places - digits.length) '0' ++ digits

end FpgaProject.Decimal

namespace FpgaProject.Binary64

open Decimal

/-- The text of a number: shortest digits, always positional, a whole number without a point. -/
def text (x : Binary64) : String :=
  match x.decode with
  | .nan => "NaN"
  | .infinite negative => if negative then "-inf" else "inf"
  | .finite negative m q =>
    let digits := if m = 0 then ['0'] else (shortest m q).positional
    String.ofList (if negative then '-' :: digits else digits)

def pointedText (x : Binary64) : String :=
  match x.decode with
  | .finite .. => if x.text.toList.contains '.' then x.text else x.text ++ ".0"
  | _ => x.text

end FpgaProject.Binary64
