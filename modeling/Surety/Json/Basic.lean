import Surety.Number.Shortest

/-!
# JSON values

The values of the wire format.  A whole number of at most 64 bits is kept apart from every other
number, because only whole numbers denote amounts.
-/

namespace Surety

/-- A JSON value; the fields of an object keep their order. -/
inductive Json where
  | null
  | bool (b : Bool)
  | int (n : Int)
  | real (negative : Bool) (magnitude : Binary64)
  | str (s : String)
  | arr (items : List Json)
  | obj (fields : List (String × Json))

namespace Json

instance : Inhabited Json := ⟨.null⟩

/-- The value of a field, when the object has it. -/
def field? (fields : List (String × Json)) (name : String) : Option Json :=
  match fields.find? (fun entry => entry.1 == name) with
  | some entry => some entry.2
  | none => none

/-- Put a field into an object; a later value of a name replaces the earlier one. -/
def setField (fields : List (String × Json)) (name : String) (value : Json) :
    List (String × Json) :=
  fields.filter (fun entry => entry.1 != name) ++ [(name, value)]

/-- The text of a number that is not kept as a whole one. -/
def realText (negative : Bool) (magnitude : Binary64) : String :=
  if negative then "-" ++ magnitude.text else magnitude.text

/-- What a value is called when another kind was expected. -/
def kind : Json → String
  | .null => "null"
  | .bool true => "boolean \x60true\x60"
  | .bool false => "boolean \x60false\x60"
  | .int n => "integer \x60" ++ toString n ++ "\x60"
  | .real negative x => "floating point \x60" ++ realText negative x ++ "\x60"
  | .str _ => "string"
  | .arr _ => "sequence"
  | .obj _ => "map"

/-- A natural number. -/
def nat (n : Nat) : Json := .int n

/-- A 64-bit amount. -/
def word (n : UInt64) : Json := nat n.toNat

/-- Read a 64-bit amount. -/
def word? : Json → Option UInt64
  | .int n => if 0 ≤ n ∧ n < 2 ^ 64 then some (UInt64.ofNat n.toNat) else none
  | _ => none

/-- An eight-bit number. -/
def byte (n : UInt8) : Json := nat n.toNat

/-- Read an eight-bit number. -/
def byte? : Json → Option UInt8
  | .int n => if 0 ≤ n ∧ n < 2 ^ 8 then some (UInt8.ofNat n.toNat) else none
  | _ => none

@[simp] theorem word?_word (n : UInt64) : word? (word n) = some n := by
  have h : n.toNat < 2 ^ 64 := n.toNat_lt
  simp only [word, nat, word?]
  rw [if_pos (by omega)]
  simp

@[simp] theorem byte?_byte (n : UInt8) : byte? (byte n) = some n := by
  have h : n.toNat < 2 ^ 8 := n.toNat_lt
  simp only [byte, nat, byte?]
  rw [if_pos (by omega)]
  simp

end Json

end Surety
