import Surety.Number.Binary64

/-!
# The shortest text of a double

The numeral with the fewest digits that rounds to a double, the nearer one where two do.  It is
written with a point and at least one digit after it as long as the point falls among or near the
digits, and with a signed exponent of ten otherwise.
-/

namespace Surety.Binary64

/-- The number of decimal digits. -/
def digitCount (n : Nat) : Nat := (Nat.toDigits 10 n).length

/-- The fractions between which every number rounds to `x`, and whether the ends do so too.  Below a
power of two the gap to the next number is half as wide. -/
def roundingInterval (x : Binary64) : (Nat × Nat) × (Nat × Nat) × Bool :=
  let upper := toRatio ⟨2 * x.significand + 1, x.exponent - 1⟩
  let lower :=
    if x.significand = 2 ^ 52 ∧ minExponent < x.exponent then
      toRatio ⟨4 * x.significand - 1, x.exponent - 2⟩
    else toRatio ⟨2 * x.significand - 1, x.exponent - 1⟩
  (lower, upper, x.significand % 2 == 0)

/-- Whether the numeral `n * 10 ^ p` rounds to `x`. -/
def readsBack (x : Binary64) (n : Nat) (p : Int) : Bool :=
  let (lower, upper, closed) := roundingInterval x
  let num := n * 10 ^ p.toNat
  let den := 10 ^ (-p).toNat
  if closed then
    decide (lower.1 * den ≤ num * lower.2) && decide (num * upper.2 ≤ upper.1 * den)
  else
    decide (lower.1 * den < num * lower.2) && decide (num * upper.2 < upper.1 * den)

/-- The numeral with step `10 ^ p` next to `x` that reads back, the nearer one of two. -/
def onGrid? (x : Binary64) (p : Int) : Option Nat :=
  let ratio := x.toRatio
  let num := ratio.1 * 10 ^ (-p).toNat
  let den := ratio.2 * 10 ^ p.toNat
  let below := num / den
  match readsBack x below p, readsBack x (below + 1) p with
  | true, true => some (roundHalfEven num den)
  | true, false => some below
  | false, true => some (below + 1)
  | false, false => none

/-- Search ever finer grids for a numeral that reads back. -/
def search (x : Binary64) : (tries : Nat) → (p : Int) → Nat × Int
  | 0, p => ((x.toRatio.1 * 10 ^ (-p).toNat) / (x.toRatio.2 * 10 ^ p.toNat), p)
  | tries + 1, p =>
      match onGrid? x p with
      | some n => (n, p)
      | none => search x tries (p - 1)

/-- The shortest numeral of a double: its digits and the exponent of the last one. -/
def shortest (x : Binary64) : Nat × Int :=
  let ratio := x.toRatio
  let top := (digitCount ratio.1 : Int) - (digitCount ratio.2 : Int) + 1
  search x 20 top

/-- A run of zeros. -/
def zeros (n : Nat) : String := String.ofList (List.replicate n '0')

/-- The first `n` characters, a point, and the others. -/
def withPoint (n : Nat) (digits : List Char) : String :=
  String.ofList (digits.take n) ++ "." ++ String.ofList (digits.drop n)

/-- An exponent of ten behind its mark, always with a sign. -/
def exponentText (k : Int) : String :=
  if k < 0 then "e-" ++ toString k.natAbs else "e+" ++ toString k.natAbs

/-- The text of `n * 10 ^ p`.  Whole numbers of at most sixteen digits and numbers from a hundred
thousandth on are written without an exponent. -/
def layOut (n : Nat) (p : Int) : String :=
  let digits := Nat.toDigits 10 n
  let point := (digits.length : Int) + p
  if 0 ≤ p ∧ point ≤ 16 then String.ofList digits ++ zeros p.toNat ++ ".0"
  else if 0 < point ∧ point ≤ 16 then withPoint point.toNat digits
  else if -5 < point ∧ point ≤ 0 then "0." ++ zeros (-point).toNat ++ String.ofList digits
  else
    let leading := if digits.length = 1 then String.ofList digits else withPoint 1 digits
    leading ++ exponentText (point - 1)

/-- The shortest text that reads back. -/
def text (x : Binary64) : String :=
  if x.significand = 0 then "0.0"
  else
    let (n, p) := shortest x
    layOut n p

end Surety.Binary64
