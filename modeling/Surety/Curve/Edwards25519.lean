import Surety.Bytes

/-!
# The Edwards curve over the field of 2^255 - 19 elements

Which strings of 32 bytes are compressed points, and the group operations that signing needs.  A
string is a point when its lowest 255 bits, taken modulo the field prime, are the `y` of a point;
the remaining bit only chooses between the two values of `x`, so it never decides.
-/

namespace Surety.Edwards25519

/-- The prime of the field. -/
def fieldPrime : Nat := 2 ^ 255 - 19

/-- The order of the base point. -/
def groupOrder : Nat := 2 ^ 252 + 27742317777372353535851937790883648493

/-- A power in the residues modulo `modulus`, by the binary digits of an exponent below `2 ^ 256`. -/
def powMod (modulus base exponent : Nat) : Nat :=
  (Positional.digits 2 256 exponent).foldr
    (fun bit acc =>
      let square := acc * acc % modulus
      if bit = 1 then square * base % modulus else square)
    1

/-- A power in the field. -/
def pow (base exponent : Nat) : Nat := powMod fieldPrime base exponent

/-- The inverse of a nonzero field element; zero has itself. -/
def inverse (x : Nat) : Nat := pow x (fieldPrime - 2)

/-- The difference of two field elements below the prime. -/
def sub (x y : Nat) : Nat := (x + fieldPrime - y) % fieldPrime

/-- The coefficient of the curve. -/
def curveD : Nat := sub 0 (121665 * inverse 121666 % fieldPrime)

/-- Whether a field element is zero or a square. -/
def isSquare (x : Nat) : Bool := pow x ((fieldPrime - 1) / 2) ≤ 1

/-- The `y` that a string of 32 bytes holds in its lowest 255 bits. -/
def coordinate (b : Bytes32) : Nat := Bytes.toNatLE b.toList % 2 ^ 255 % fieldPrime

/-- Whether a string of 32 bytes is a compressed point: `(y² - 1) / (d y² + 1)` has to be a square,
and so has the product of the two. -/
def isPoint (b : Bytes32) : Bool :=
  let y := coordinate b
  let square := y * y % fieldPrime
  let u := sub square 1
  let v := (curveD * square + 1) % fieldPrime
  isSquare (u * v % fieldPrime)

/-- A point in extended coordinates: `x = X / Z`, `y = Y / Z`, `X Y = Z T`. -/
structure Point where
  x : Nat
  y : Nat
  z : Nat
  t : Nat

namespace Point

/-- The neutral element. -/
def identity : Point := ⟨0, 1, 1, 0⟩

/-- The base point, with the even `x` at `y = 4 / 5`. -/
def base : Point :=
  let x := 15112221349535400772501151409588531511454012693041857206046113283949847762202
  let y := 46316835694926478169428394003475163141307993866256225615783033603165251855960
  ⟨x, y, 1, x * y % fieldPrime⟩

/-- The sum of two points. -/
def add (p q : Point) : Point :=
  let a := sub p.y p.x * sub q.y q.x % fieldPrime
  let b := (p.y + p.x) * (q.y + q.x) % fieldPrime
  let c := p.t * 2 * curveD * q.t % fieldPrime
  let d := p.z * 2 * q.z % fieldPrime
  let e := sub b a
  let f := sub d c
  let g := (d + c) % fieldPrime
  let h := (b + a) % fieldPrime
  ⟨e * f % fieldPrime, g * h % fieldPrime, f * g % fieldPrime, e * h % fieldPrime⟩

/-- A multiple of a point, by the binary digits of a factor below `2 ^ 256`. -/
def multiple (p : Point) (factor : Nat) : Point :=
  (Positional.digits 2 256 factor).foldr
    (fun bit acc =>
      let double := add acc acc
      if bit = 1 then add double p else double)
    identity

/-- The compressed form: `y`, with the lowest bit of `x` on top. -/
def compress (p : Point) : Bytes32 :=
  let zInverse := inverse p.z
  let x := p.x * zInverse % fieldPrime
  let y := p.y * zInverse % fieldPrime
  ⟨Bytes.ofNatLE 32 (y + x % 2 * 2 ^ 255), Bytes.ofNatLE_length _ _⟩

end Point

end Surety.Edwards25519
