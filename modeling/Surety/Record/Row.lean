import Surety.Record.Scalar

/-!
# Records by field name or by position

A record is written as an object.  It is read from an object, whose unknown fields are ignored, or
from a list that gives the fields in their order.  A list may end early only before fields that have
a default; a list that is too long is refused.
-/

namespace Surety.Json

/-- What a record gives for one of its fields. -/
inductive Slot where
  | given (value : Json)
  /-- an object without the field -/
  | absent
  /-- a list that ends before the field -/
  | cutOff

/-- The fields of a record, by name. -/
abbrev Row := String → Slot

/-- The fields of a record with the given names. -/
def row? (names : List String) : Json → Option Row
  | .obj fields => some fun name =>
      match field? fields name with
      | some value => .given value
      | none => .absent
  | .arr items =>
      if items.length ≤ names.length then
        some fun name =>
          match (names.idxOf? name).bind (items[·]?) with
          | some value => .given value
          | none => .cutOff
      else none
  | _ => none

/-- A field that has to be there. -/
def Slot.required? {α : Type} (slot : Slot) (read : Json → Option α) : Option α :=
  match slot with
  | .given value => read value
  | _ => none

/-- A field with a default. -/
def Slot.defaulted? {α : Type} (slot : Slot) (default : α) (read : Json → Option α) : Option α :=
  match slot with
  | .given value => read value
  | _ => some default

/-- A field that may be null, or missing from an object. -/
def Slot.nullable? {α : Type} (slot : Slot) (read : Json → Option α) : Option (Option α) :=
  match slot with
  | .given .null => some none
  | .given value => (read value).map some
  | .absent => some none
  | .cutOff => none

/-- An address field. -/
def Slot.address? (slot : Slot) : Option Address :=
  slot.required? fun value => (toAddress value).toOption

/-- An address field that may be null and is null by default. -/
def Slot.optionalAddress? (slot : Slot) : Option (Option Address) :=
  slot.defaulted? none fun value => (toAddress? value).toOption

/-- A root field. -/
def Slot.digest? (slot : Slot) : Option Digest :=
  slot.required? fun value => (toDigest value).toOption

/-- An amount field. -/
def Slot.word? (slot : Slot) : Option UInt64 := slot.required? Json.word?

/-- An eight-bit field. -/
def Slot.byte? (slot : Slot) : Option UInt8 := slot.required? Json.byte?

/-- The alternative that a value names, with its payload: a bare name or an object with one field. -/
def variant? : Json → Option (String × Option Json)
  | .str name => some (name, none)
  | .obj [(name, payload)] => some (name, some payload)
  | _ => none

/-- The name of an alternative without payload. -/
def unitVariant? (value : Json) : Option String :=
  match variant? value with
  | some (name, none) => some name
  | some (name, some .null) => some name
  | _ => none

/-- The name and the fields of an alternative with payload, which is always an object. -/
def recordVariant? (value : Json) : Option (String × Json) :=
  match variant? value with
  | some (name, some (.obj fields)) => some (name, .obj fields)
  | _ => none

end Surety.Json
