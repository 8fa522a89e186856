import Surety.Json.Basic
import Surety.Number.Decimal
import Surety.Text.Digit

/-!
# Reading JSON text

A reader for one value per text.  It refuses nesting of 128 lists or objects and more, numbers beyond
the finite doubles, raw control characters and lone surrogates.  Every step consumes a
character or descends into a value that starts at the next one, so twice the length of the text is
enough fuel.
-/

namespace Surety.Json

/-- The blanks between tokens. -/
def isBlank (c : Char) : Bool := c = ' ' || c = '\t' || c = '\n' || c = '\r'

/-- Drop leading blanks. -/
def skipBlanks (text : List Char) : List Char := text.dropWhile isBlank

/-- The character of a single-letter escape. -/
def simpleEscape? (c : Char) : Option Char :=
  if c = '"' then some '"'
  else if c = '\\' then some '\\'
  else if c = '/' then some '/'
  else if c = 'b' then some (Char.ofNat 8)
  else if c = 'f' then some (Char.ofNat 12)
  else if c = 'n' then some '\n'
  else if c = 'r' then some '\r'
  else if c = 't' then some '\t'
  else none

/-- One character of a quoted string and the text after it; `none` when it is malformed. -/
def stringChar? : List Char → Option (Char × List Char)
  | '\\' :: 'u' :: a :: b :: c :: d :: rest => do
      let high ← Digit.number? 16 [a, b, c, d]
      if 0xD800 ≤ high ∧ high < 0xDC00 then
        match rest with
        | '\\' :: 'u' :: e :: f :: g :: h :: rest => do
            let low ← Digit.number? 16 [e, f, g, h]
            if 0xDC00 ≤ low ∧ low < 0xE000 then
              return (Char.ofNat (0x10000 + (high - 0xD800) * 0x400 + (low - 0xDC00)), rest)
            else none
        | _ => none
      else if 0xDC00 ≤ high ∧ high < 0xE000 then none
      else return (Char.ofNat high, rest)
  | '\\' :: c :: rest => (simpleEscape? c).map (·, rest)
  | c :: rest => if c.toNat < 32 then none else some (c, rest)
  | [] => none

/-- The rest of a quoted string after its opening quote; `taken` holds its characters so far in
reverse. -/
def stringRest : (fuel : Nat) → (taken : List Char) → List Char → Option (String × List Char)
  | 0, _, _ => none
  | _ + 1, taken, '"' :: rest => some (String.ofList taken.reverse, rest)
  | fuel + 1, taken, text =>
      match stringChar? text with
      | some (c, rest) => stringRest fuel (c :: taken) rest
      | none => none

/-- The number that a run of decimal digits denotes. -/
def decimalValue (digits : List Char) : Nat := (Digit.number? 10 digits).getD 0

/-- The fractional digits after a point; without a point there are none. -/
def fractionDigits? : List Char → Option (List Char × List Char)
  | '.' :: rest =>
      match rest.takeWhile Char.isDigit with
      | [] => none
      | digits => some (digits, rest.dropWhile Char.isDigit)
  | text => some ([], text)

/-- The sign of an exponent and the text after it. -/
def exponentSign : List Char → Int × List Char
  | '+' :: rest => (1, rest)
  | '-' :: rest => (-1, rest)
  | text => (1, text)

/-- The exponent after its mark; without a mark there is none. -/
def exponent? (text : List Char) : Option (Option Int × List Char) :=
  match text with
  | [] => some (none, [])
  | mark :: rest =>
      if mark = 'e' ∨ mark = 'E' then
        let (sign, rest) := exponentSign rest
        match rest.takeWhile Char.isDigit with
        | [] => none
        | digits => some (some (sign * decimalValue digits), rest.dropWhile Char.isDigit)
      else some (none, text)

/-- The values of decimal digits. -/
def digitValues (digits : List Char) : List Nat := digits.filterMap (Digit.value? 10)

/-- The value of a number: whole numbers of at most 64 bits are integers, minus zero and all others
are doubles. -/
def numberOf? (negative : Bool) (whole fraction : List Char) (exponent : Option Int) :
    Option Json :=
  let plain := fraction.isEmpty && exponent.isNone
  let magnitude := decimalValue whole
  if plain && !negative && decide (magnitude < 2 ^ 64) then some (.int magnitude)
  else if plain && negative && decide (0 < magnitude ∧ magnitude ≤ 2 ^ 63) then
    some (.int (-(magnitude : Int)))
  else
    (Decimal.ofDigits (digitValues whole) (digitValues fraction) (exponent.getD 0)).toBinary64?.map
      (.real negative)

/-- The digits before the point: a single zero or a run that does not start with one. -/
def wholeDigits? : List Char → Option (List Char × List Char)
  | '0' :: rest => some (['0'], rest)
  | text =>
      match text.takeWhile Char.isDigit with
      | [] => none
      | digits => some (digits, text.dropWhile Char.isDigit)

/-- A number after its sign. -/
def number? (negative : Bool) (text : List Char) : Option (Json × List Char) := do
  let (whole, rest) ← wholeDigits? text
  let (fraction, rest) ← fractionDigits? rest
  let (exponent, rest) ← exponent? rest
  let value ← numberOf? negative whole fraction exponent
  return (value, rest)

/-- The deepest nesting of lists and objects. -/
def maxDepth : Nat := 127

mutual

/-- A value at the start of a text, and the text after it. -/
def value? : (fuel : Nat) → (depth : Nat) → List Char → Option (Json × List Char)
  | 0, _, _ => none
  | fuel + 1, depth, text =>
      match skipBlanks text with
      | 'n' :: 'u' :: 'l' :: 'l' :: rest => some (.null, rest)
      | 't' :: 'r' :: 'u' :: 'e' :: rest => some (.bool true, rest)
      | 'f' :: 'a' :: 'l' :: 's' :: 'e' :: rest => some (.bool false, rest)
      | '"' :: rest => (stringRest fuel [] rest).map fun (s, rest) => (.str s, rest)
      | '-' :: rest => number? true rest
      | '[' :: rest =>
          if depth = 0 then none
          else
            match skipBlanks rest with
            | ']' :: rest => some (.arr [], rest)
            | rest => items? fuel (depth - 1) [] rest
      | '\x7b' :: rest =>
          if depth = 0 then none
          else
            match skipBlanks rest with
            | '\x7d' :: rest => some (.obj [], rest)
            | rest => fields? fuel (depth - 1) [] rest
      | rest => number? false rest

/-- The items of a list after its opening bracket; `taken` holds those so far in reverse. -/
def items? : (fuel : Nat) → (depth : Nat) → (taken : List Json) → List Char →
    Option (Json × List Char)
  | 0, _, _, _ => none
  | fuel + 1, depth, taken, text =>
      match value? fuel depth text with
      | none => none
      | some (item, rest) =>
          match skipBlanks rest with
          | ',' :: rest => items? fuel depth (item :: taken) rest
          | ']' :: rest => some (.arr (item :: taken).reverse, rest)
          | _ => none

/-- The fields of an object after its opening brace; `taken` holds those so far. -/
def fields? : (fuel : Nat) → (depth : Nat) → (taken : List (String × Json)) → List Char →
    Option (Json × List Char)
  | 0, _, _, _ => none
  | fuel + 1, depth, taken, text =>
      match skipBlanks text with
      | '"' :: rest =>
          match stringRest fuel [] rest with
          | none => none
          | some (name, rest) =>
              match skipBlanks rest with
              | ':' :: rest =>
                  match value? fuel depth rest with
                  | none => none
                  | some (value, rest) =>
                      let taken := setField taken name value
                      match skipBlanks rest with
                      | ',' :: rest => fields? fuel depth taken rest
                      | '\x7d' :: rest => some (.obj taken, rest)
                      | _ => none
              | _ => none
      | _ => none

end

/-- The value that a whole text denotes. -/
def parse? (text : String) : Option Json :=
  let chars := text.toList
  match value? (2 * chars.length + 2) maxDepth chars with
  | some (value, rest) => if (skipBlanks rest).isEmpty then some value else none
  | none => none

end Surety.Json
