import Surety.Number.Power

/-!
# Nonnegative double-precision numbers

A number `significand * 2 ^ exponent` with a significand below `2 ^ 53`, and the operations that
compute an exact fraction and round it once: to the nearest such number, a half going to the even
significand.  Magnitudes that leave the finite doubles keep their value here; `isFinite` tells them
apart.
-/

namespace Surety

/-- A nonnegative number with a significand of at most 53 bits. -/
structure Binary64 where
  significand : Nat
  exponent : Int
  deriving DecidableEq

namespace Binary64

/-- The exponent below which no number goes; the smallest positive number is `2 ^ minExponent`. -/
def minExponent : Int := -1074

/-- The quotient rounded to the nearest whole number, a half to the even one. -/
def roundHalfEven (num den : Nat) : Nat :=
  let quotient := num / den
  let twice := 2 * (num % den)
  if twice < den then quotient
  else if den < twice then quotient + 1
  else if quotient % 2 = 0 then quotient
  else quotient + 1

/-- The fraction `num / (den * 2 ^ exponent)` as a pair of natural numbers. -/
def scale (num den : Nat) (exponent : Int) : Nat × Nat :=
  (num * 2 ^ (-exponent).toNat, den * 2 ^ exponent.toNat)

/-- The nearest number to a fraction with a positive denominator. -/
def ofRatio (num den : Nat) : Binary64 :=
  if num = 0 then ⟨0, minExponent⟩
  else
    let guess : Int := (num.log2 : Int) - (den.log2 : Int) - 52
    let scaled := scale num den guess
    let fitted := if scaled.1 / scaled.2 < 2 ^ 52 then guess - 1 else guess
    let exponent := max fitted minExponent
    let rounded := scale num den exponent
    let significand := roundHalfEven rounded.1 rounded.2
    if significand = 2 ^ 53 then ⟨2 ^ 52, exponent + 1⟩ else ⟨significand, exponent⟩

/-- The nearest number to a natural number. -/
def ofNat (n : Nat) : Binary64 := ofRatio n 1

/-- The exact value as a fraction with a positive denominator. -/
def toRatio (x : Binary64) : Nat × Nat :=
  (x.significand * 2 ^ x.exponent.toNat, 2 ^ (-x.exponent).toNat)

/-- The rounded product. -/
def mul (x y : Binary64) : Binary64 :=
  ofRatio (x.toRatio.1 * y.toRatio.1) (x.toRatio.2 * y.toRatio.2)

/-- The rounded quotient by a positive number. -/
def div (x y : Binary64) : Binary64 :=
  ofRatio (x.toRatio.1 * y.toRatio.2) (x.toRatio.2 * y.toRatio.1)

/-- The largest whole number that is not above. -/
def floor (x : Binary64) : Nat := x.toRatio.1 / x.toRatio.2

/-- Whether the number is a finite double. -/
def isFinite (x : Binary64) : Bool := decide (x.exponent ≤ 971)

end Binary64

end Surety
