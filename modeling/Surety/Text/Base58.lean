import Surety.Text.Hex

/-!
# Base-58 text

Byte strings as numerals over an alphabet of 58 letters and digits without `0`, `O`, `I` and `l`.
Every leading zero byte is one leading `1`, the rest is the shortest numeral of the remaining
number.  An address is read from the form of 32 bytes; a text longer than 44 bytes is refused before
its characters are looked at.
-/

namespace Surety.Base58

/-- The digits in the order of their values. -/
def alphabet : List Char := "123456789ABCDEFGHJKLMNPQRSTUVWXYZabcdefghijkmnopqrstuvwxyz".toList

/-- The character of a digit below 58. -/
def digitChar (d : Nat) : Char := alphabet.getD d '1'

/-- The value of a digit character. -/
def digitValue? (c : Char) : Option Nat := alphabet.idxOf? c

/-- The digits of a byte string, most significant first. -/
def encodeDigits (b : Bytes) : List Nat :=
  List.replicate (b.takeWhile (· == 0)).length 0
    ++ (Positional.digits 58 (2 * b.length) (Bytes.toNatBE b)).reverse.dropWhile (· == 0)

/-- The numeral of a byte string. -/
def encode (b : Bytes) : String := String.ofList ((encodeDigits b).map digitChar)

/-- The byte string that a list of digits denotes, most significant digit first. -/
def decodeDigits (ds : List Nat) : Bytes :=
  List.replicate (ds.takeWhile (· == 0)).length 0
    ++ (Bytes.ofNatBE ds.length (Positional.value 58 ds.reverse)).dropWhile (· == 0)

/-- The byte string that a numeral denotes. -/
def decode? (text : List Char) : Option Bytes := (text.mapM digitValue?).map decodeDigits

end Surety.Base58

namespace Surety.Address

/-- Why a text is no address. -/
inductive Fault where
  | wrongSize
  | notBase58
  deriving DecidableEq

/-- The text that reports a fault. -/
def Fault.message : Fault → String
  | .wrongSize => "String is the wrong size"
  | .notBase58 => "Invalid Base58 string"

/-- The longest numeral that 32 bytes can have. -/
def maxTextLength : Nat := 44

/-- The text of an address. -/
def toText (a : Address) : String := Base58.encode a.toList

/-- Read an address. -/
def ofText (text : String) : Except Fault Address :=
  if maxTextLength < (Hex.utf8 text.toList).length then .error .wrongSize
  else
    match Base58.decode? text.toList with
    | none => .error .notBase58
    | some bytes =>
        match Bytes32.ofList? bytes with
        | none => .error .wrongSize
        | some a => .ok a

/-- Read an address, without a reason on failure. -/
def ofText? (text : String) : Option Address := (ofText text).toOption

/-- The address of 32 zero bytes, which stands for "not set". -/
def unset : Address := Bytes32.zero

/-- How a value that may be missing shows inside a message. -/
def describe : Option Address → String
  | none => "None"
  | some a => "Some(" ++ toText a ++ ")"

end Surety.Address
