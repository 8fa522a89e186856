import Surety.Number.Power
import Surety.Yaml.Node

/-!
# Texts and amounts in YAML

Every scalar can be read as a text.  Only a plain scalar, or one that is tagged as an integer, can be
read as an amount: decimal without leading zeros, or hexadecimal, octal or binary behind `0x`, `0o`
or `0b`.  A minus sign is permitted in front of zero only.
-/

namespace Surety.Yaml

/-- A text without a leading plus sign. -/
def dropPlus : List Char → List Char
  | '+' :: rest => rest
  | text => text

/-- The radix that a text starts with, and its digits. -/
def radix? : List Char → Option (Nat × List Char)
  | '0' :: 'x' :: digits => some (16, digits)
  | '0' :: 'o' :: digits => some (8, digits)
  | '0' :: 'b' :: digits => some (2, digits)
  | _ => none

/-- Zero, written with any number of digits. -/
def zero? (radix : Nat) (digits : List Char) : Option Nat :=
  (Digit.number? radix digits).filter (· == 0)

/-- The number that a plain scalar denotes. -/
def plainNumber? : List Char → Option Nat
  | '-' :: rest =>
      match radix? rest with
      | some (radix, digits) => zero? radix digits
      | none => if rest = ['0'] then some 0 else none
  | text =>
      let rest := dropPlus text
      match radix? rest with
      | some (radix, digits) => Digit.number? radix (dropPlus digits)
      | none => if rest.length > 1 && rest.head? == some '0' then none else Digit.number? 10 rest

/-- The number that a scalar tagged as an integer denotes: at most 63 bits, with any leading zeros. -/
def taggedNumber? : List Char → Option Nat
  | '-' :: rest => zero? 10 rest
  | text => (Digit.number? 10 (dropPlus text)).filter (· < 2 ^ 63)

namespace Node

/-- The text of a scalar. -/
def text? : Node → Option String
  | .scalar _ _ text => some text
  | _ => none

/-- The number of a scalar. -/
def number? : Node → Option Nat
  | .scalar .plain none text => plainNumber? text.toList
  | .scalar _ (some (.core name)) text =>
      if name = "int" then taggedNumber? text.toList else none
  | _ => none

/-- The 64-bit amount of a scalar. -/
def word? (node : Node) : Option UInt64 :=
  (node.number?.filter (· < 2 ^ 64)).map UInt64.ofNat

end Node

end Surety.Yaml
