import Surety.Number.Binary64

/-!
# Decimal numerals

A numeral `significand * 10 ^ exponent` as it is read from digits, and the double that it denotes.
The significand keeps the leading digits that fit in 64 bits.  The double is the rounded significand
times, or divided by, a rounded power of ten: one rounding after another, so for long numerals it
can be a neighbour of the nearest double.
-/

namespace Surety

/-- A decimal numeral without a sign. -/
structure Decimal where
  significand : Nat
  exponent : Int
  deriving DecidableEq

namespace Decimal

/-- Append digits to a number as long as it stays below `2 ^ 64`, and count the digits that are left
over. -/
def appendDigits (n : Nat) : List Nat → Nat × Nat
  | [] => (n, 0)
  | digit :: rest =>
      if 10 * n + digit < 2 ^ 64 then appendDigits (10 * n + digit) rest
      else (n, rest.length + 1)

/-- The numeral with these digits before and after the point.  Digits that do not fit are dropped;
those before the point still count for the exponent. -/
def ofDigits (whole fraction : List Nat) (exponent : Int) : Decimal :=
  let (leading, dropped) := appendDigits 0 whole
  let (significand, ignored) := appendDigits leading fraction
  ⟨significand, exponent + dropped - (fraction.length - ignored : Nat)⟩

/-- The greatest exponent whose power of ten is a finite double. -/
def maxExponent : Nat := 308

/-- The rounded power of ten. -/
def powerOfTen (k : Nat) : Binary64 := Binary64.ofNat (10 ^ k)

/-- Divide by `10 ^ k`, in two steps when no double is near to that power.  What needs a third step
is below every positive double. -/
def scaleDown (x : Binary64) (k : Nat) : Binary64 :=
  if k ≤ maxExponent then x.div (powerOfTen k)
  else if k ≤ 2 * maxExponent then
    (x.div (powerOfTen maxExponent)).div (powerOfTen (k - maxExponent))
  else Binary64.ofNat 0

/-- Multiply by `10 ^ k`; `none` when the result is no finite double. -/
def scaleUp? (x : Binary64) (k : Nat) : Option Binary64 :=
  if k ≤ maxExponent then some (x.mul (powerOfTen k)) |>.filter Binary64.isFinite else none

/-- The double that a numeral denotes; `none` when it is too large. -/
def toBinary64? (d : Decimal) : Option Binary64 :=
  let x := Binary64.ofNat d.significand
  if d.significand = 0 then some x
  else if 0 ≤ d.exponent then scaleUp? x d.exponent.toNat
  else some (scaleDown x (-d.exponent).toNat)

end Decimal

end Surety
