/-!
Binary floating-point numbers of 64 bits, by their bits.

A finite number is `± m · 2^q` for naturals `m`; `decode` gives these parts and `ofDecimal` rounds a
decimal to the nearest number, ties to the even significand. Nothing here uses machine arithmetic,
so what the functions give can be computed and reasoned about with natural numbers alone.
-/

namespace FpgaProject

namespace Decimal

def twoTo (n : Nat) : Nat :=
  Nat.pow 2 n

def tenTo (n : Nat) : Nat :=
  Nat.pow 10 n

end Decimal

open Decimal

structure Binary64 where
  bits : UInt64
deriving DecidableEq, Repr

namespace Binary64

/-- What the bits of a number say. -/
inductive Parts where
  | nan
  | infinite (negative : Bool)
  | finite (negative : Bool) (significand : Nat) (exponent : Int)
deriving DecidableEq, Repr

/-- Reads the bits: one for the sign, eleven for the exponent, the others for the significand. -/
def decode (x : Binary64) : Parts :=
  let n := x.bits.toNat
  let negative := n / twoTo 63 == 1
  let exponent : Nat := n / twoTo 52 % twoTo 11
  let fraction : Nat := n % twoTo 52
  if exponent = 2047 then
    if fraction = 0 then .infinite negative else .nan
  else if exponent = 0 then .finite negative fraction (-1074)
  else .finite negative (twoTo 52 + fraction) (exponent - 1075)

/-- Whether the number is not a number. -/
def isNaN (x : Binary64) : Bool :=
  x.decode == .nan

def signBit (negative : Bool) : Nat :=
  if negative then twoTo 63 else 0

def infinity (negative : Bool) : Binary64 :=
  ⟨UInt64.ofNat (signBit negative + 2047 * twoTo 52)⟩

def notANumber : Binary64 :=
  ⟨UInt64.ofNat (2047 * twoTo 52 + twoTo 51)⟩

/-- The quotient of two naturals, rounded to the nearest, ties to even. -/
def divideToNearest (num den : Nat) : Nat :=
  let floor := num / den
  let twice := 2 * (num % den)
  if twice < den then floor
  else if den < twice then floor + 1
  else if floor % 2 = 0 then floor else floor + 1

/-- The quotient `num / den` in units of `2^q`, rounded. -/
def inUnits (num den : Nat) (q : Int) : Nat :=
  if 0 ≤ q then divideToNearest num (den * twoTo q.toNat)
  else divideToNearest (num * twoTo (-q).toNat) den

/-- Whether `num / den` is less than `2^52` units of `2^q`. -/
def isBelowBinade (num den : Nat) (q : Int) : Bool :=
  if 0 ≤ q then num < den * twoTo (52 + q.toNat) else num * twoTo (-q).toNat < den * twoTo 52

/-- The number whose significand is `m` in units of `2^q`, for `m ≤ 2^53` and `-1074 ≤ q`. -/
def ofParts (negative : Bool) (m : Nat) (q : Int) : Binary64 :=
  let (m, q) := if m = twoTo 53 then (twoTo 52, q + 1) else (m, q)
  if m < twoTo 52 then ⟨UInt64.ofNat (signBit negative + m)⟩
  else if 971 < q then infinity negative
  else ⟨UInt64.ofNat (signBit negative + (q + 1075).toNat * twoTo 52 + (m - twoTo 52))⟩

/-- The number nearest to the positive quotient `num / den`. -/
def ofQuotient (negative : Bool) (num den : Nat) : Binary64 :=
  let guess : Int := (num.log2 : Int) - den.log2 - 52
  let q := max (if isBelowBinade num den guess then guess - 1 else guess) (-1074)
  ofParts negative (inUnits num den q) q

/-- The number nearest to `± digits · 10^exponent`. A decimal beyond the largest number by far
gives infinity, one below the smallest by far gives zero. -/
def ofDecimal (negative : Bool) (digits : Nat) (exponent : Int) : Binary64 :=
  let length : Int := (Nat.toDigits 10 digits).length
  if digits = 0 || length + exponent < -330 then ⟨UInt64.ofNat (signBit negative)⟩
  else if 320 < length + exponent then infinity negative
  else if 0 ≤ exponent then ofQuotient negative (digits * tenTo exponent.toNat) 1
  else ofQuotient negative digits (tenTo (-exponent).toNat)

end Binary64

end FpgaProject
