import Surety.Json.Basic
import Surety.Text.Base58

/-!
# Addresses and hashes in records

Inside records an address is its base-58 text and a root is 64 hexadecimal digits; where a record
keeps raw bytes they are a list of 32 numbers.  Reading what was written gives the value back.  An
address has one text only, a root may be read with marks in front and with upper-case digits.
-/

namespace Surety

/-- Why a JSON value is no address or root. -/
inductive ScalarFault where
  | notText (found : Json)
  | address (fault : Address.Fault)
  | hex (fault : Hex.Fault)

/-- The text that reports a fault. -/
def ScalarFault.message : ScalarFault → String
  | .notText found => "invalid type: " ++ found.kind ++ ", expected a string"
  | .address fault => fault.message
  | .hex fault => fault.message

namespace Json

/-- The text of a string value. -/
def text : Json → Except ScalarFault String
  | .str s => .ok s
  | value => .error (.notText value)

/-- An address as its text. -/
def ofAddress (a : Address) : Json := .str a.toText

/-- Read an address from its text. -/
def toAddress (value : Json) : Except ScalarFault Address := do
  let s ← value.text
  (Address.ofText s).mapError .address

/-- An address that may be missing. -/
def ofAddress? : Option Address → Json
  | none => .null
  | some a => ofAddress a

/-- Read an address that may be missing. -/
def toAddress? : Json → Except ScalarFault (Option Address)
  | .null => .ok none
  | value => (toAddress value).map some

/-- A root as 64 hexadecimal digits. -/
def ofDigest (d : Digest) : Json := .str (Hex.encode d.toList)

/-- Read a root after any number of leading marks. -/
def toDigest (value : Json) : Except ScalarFault Digest := do
  let s ← value.text
  (Hex.decodeMarked32 s).mapError .hex

/-- Raw bytes as a list of numbers. -/
def ofRaw32 (b : Bytes32) : Json := .arr (b.toList.map byte)

/-- Read 32 raw bytes from a list of numbers. -/
def toRaw32? : Json → Option Bytes32
  | .arr items => (items.mapM byte?).bind Bytes32.ofList?
  | _ => none

/-- A list of raw bytes. -/
def ofRawList (bs : List Bytes32) : Json := .arr (bs.map ofRaw32)

/-- Read a list of raw bytes. -/
def toRawList? : Json → Option (List Bytes32)
  | .arr items => items.mapM toRaw32?
  | _ => none

theorem mapM_byte?_map_byte (b : Bytes) : (b.map byte).mapM byte? = some b := by
  induction b with
  | nil => rfl
  | cons x b ih => simp [ih]

@[simp] theorem toRaw32?_ofRaw32 (b : Bytes32) : toRaw32? (ofRaw32 b) = some b := by
  simp only [ofRaw32, toRaw32?, mapM_byte?_map_byte]
  simp

@[simp] theorem toRawList?_ofRawList (bs : List Bytes32) :
    toRawList? (ofRawList bs) = some bs := by
  simp only [ofRawList, toRawList?]
  induction bs with
  | nil => rfl
  | cons b bs ih => simp [ih]

end Json

end Surety
