import Surety.Bytes

/-!
# Hexadecimal text

Bytes are written with two lower-case digits each and read with digits of either case.  A reader
that expects a fixed number of bytes first refuses an odd number of digits, then any other length,
then the first byte that is no digit.  Positions count the bytes of the UTF-8 text, so a character
outside ASCII is refused at its first byte.
-/

namespace Surety.Hex

/-- Why a text is no hexadecimal form of the expected number of bytes. -/
inductive Fault where
  | oddLength
  | wrongLength
  | badDigit (byte : UInt8) (position : Nat)
  deriving DecidableEq

/-- The UTF-8 bytes of a text. -/
def utf8 (text : List Char) : Bytes := text.flatMap String.utf8EncodeChar

/-- The lower-case digit of a number below sixteen. -/
def digitChar (n : Nat) : Char := Char.ofNat (if n < 10 then 48 + n else 87 + n)

/-- The two digits of a byte, the high half first. -/
def byteDigits (b : UInt8) : List Char := [digitChar (b.toNat / 16), digitChar (b.toNat % 16)]

/-- The lower-case hexadecimal form of a byte string. -/
def encodeChars (b : Bytes) : List Char := b.flatMap byteDigits

/-- The lower-case hexadecimal form of a byte string. -/
def encode (b : Bytes) : String := String.ofList (encodeChars b)

/-- The number that a digit of either case denotes. -/
def digitValue? (b : UInt8) : Option Nat :=
  let n := b.toNat
  if 48 ≤ n ∧ n ≤ 57 then some (n - 48)
  else if 97 ≤ n ∧ n ≤ 102 then some (n - 87)
  else if 65 ≤ n ∧ n ≤ 70 then some (n - 55)
  else none

/-- The number that a digit denotes, or the fault of the byte at its position. -/
def digitAt (position : Nat) (b : UInt8) : Except Fault Nat :=
  match digitValue? b with
  | some n => .ok n
  | none => .error (.badDigit b position)

/-- Read pairs of digits; `position` is the place of the first byte in the whole text. -/
def decodeFrom (position : Nat) : Bytes → Except Fault Bytes
  | [] => .ok []
  | [_] => .error .oddLength
  | high :: low :: rest => do
      let h ← digitAt position high
      let l ← digitAt (position + 1) low
      let tail ← decodeFrom (position + 2) rest
      return UInt8.ofNat (16 * h + l) :: tail

/-- Read exactly `width` bytes. -/
def decodeExact (width : Nat) (text : List Char) : Except Fault Bytes :=
  let bytes := utf8 text
  if bytes.length % 2 = 1 then .error .oddLength
  else if bytes.length ≠ 2 * width then .error .wrongLength
  else decodeFrom 0 bytes

/-- Read a byte string of any length. -/
def decode? (text : String) : Option Bytes := (decodeFrom 0 (utf8 text.toList)).toOption

/-- Read a string of 32 bytes. -/
def decode32? (text : String) : Option Bytes32 := (decode? text).bind Bytes32.ofList?

/-- A hexadecimal number without leading zeros. -/
def ofNat (n : Nat) : String := String.ofList (Nat.toDigits 16 n)

/-- Whether the Latin-1 character of a byte shows as itself: controls, the two blanks outside ASCII
and the soft hyphen do not. -/
def isShown (b : UInt8) : Bool :=
  let n := b.toNat
  (32 ≤ n && n ≤ 126) || (161 ≤ n && n ≠ 173)

/-- A byte as a quoted Latin-1 character, with what does not show written as an escape. -/
def quotedByte (b : UInt8) : String :=
  let shown :=
    if b = 0 then "\\0"
    else if b = 9 then "\\t"
    else if b = 10 then "\\n"
    else if b = 13 then "\\r"
    else if b = 39 then "\\'"
    else if b = 92 then "\\\\"
    else if isShown b then String.singleton (Char.ofNat b.toNat)
    else "\\u\x7b" ++ ofNat b.toNat ++ "\x7d"
  "'" ++ shown ++ "'"

/-- The text that reports a fault. -/
def Fault.message : Fault → String
  | .oddLength => "Odd number of digits"
  | .wrongLength => "Invalid string length"
  | .badDigit byte position =>
      "Invalid character " ++ quotedByte byte ++ " at position " ++ toString position

/-- Drop every leading mark `0x`, however often it is repeated. -/
def dropMarks : List Char → List Char
  | '0' :: 'x' :: rest => dropMarks rest
  | text => text

/-- Read 32 bytes after any number of leading marks. -/
def decodeMarked32 (text : String) : Except Fault Bytes32 := do
  let bytes ← decodeExact 32 (dropMarks text.toList)
  match Bytes32.ofList? bytes with
  | some x => return x
  | none => throw .wrongLength

end Surety.Hex
