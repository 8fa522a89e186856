/-!
# Numbers written in digits

The value of a digit in a base up to sixteen, letters of either case following on the ten decimal
digits, and the number that a text of digits denotes.
-/

namespace Surety.Digit

/-- The value of a hexadecimal digit. -/
def hexValue? (c : Char) : Option Nat :=
  if '0' ≤ c ∧ c ≤ '9' then some (c.toNat - 48)
  else if 'a' ≤ c ∧ c ≤ 'f' then some (c.toNat - 87)
  else if 'A' ≤ c ∧ c ≤ 'F' then some (c.toNat - 55)
  else none

/-- The value of a digit of a base. -/
def value? (base : Nat) (c : Char) : Option Nat := (hexValue? c).filter (· < base)

/-- The number that at least one digit denotes. -/
def number? (base : Nat) (text : List Char) : Option Nat :=
  if text.isEmpty then none
  else (text.mapM (value? base)).map fun digits => digits.foldl (fun n d => base * n + d) 0

end Surety.Digit
