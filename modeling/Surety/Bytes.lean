import Surety.Positional

/-!
# Byte strings and fixed-width words

Byte strings are lists of bytes; numbers are written into them in little-endian and big-endian
order.  `Bytes32` is a string of exactly 32 bytes, the width of every digest and of every account
address, ordered lexicographically.
-/

namespace Surety

/-- A string of bytes. -/
abbrev Bytes := List UInt8

namespace Bytes

/-- The `width` lowest bytes of a number, least significant byte first. -/
def ofNatLE (width n : Nat) : Bytes := (Positional.digits 256 width n).map UInt8.ofNat

/-- The number that a byte string denotes, least significant byte first. -/
def toNatLE (b : Bytes) : Nat := Positional.value 256 (b.map UInt8.toNat)

/-- The `width` lowest bytes of a number, most significant byte first. -/
def ofNatBE (width n : Nat) : Bytes := (ofNatLE width n).reverse

/-- The number that a byte string denotes, most significant byte first. -/
def toNatBE (b : Bytes) : Nat := toNatLE b.reverse

@[simp] theorem ofNatLE_length (width n : Nat) : (ofNatLE width n).length = width := by
  simp [ofNatLE]

@[simp] theorem ofNatBE_length (width n : Nat) : (ofNatBE width n).length = width := by
  simp [ofNatBE]

theorem toNatLE_lt (b : Bytes) : toNatLE b < 256 ^ b.length := by
  have hdigits : ∀ d ∈ b.map UInt8.toNat, d < 256 := by
    intro d hd
    obtain ⟨x, -, rfl⟩ := List.mem_map.1 hd
    exact x.toNat_lt
  have h := Positional.value_lt hdigits
  simpa [toNatLE] using h

/-- The bytes of a number are its digits. -/
theorem map_toNat_ofNatLE (width n : Nat) :
    (ofNatLE width n).map UInt8.toNat = Positional.digits 256 width n := by
  rw [ofNatLE, List.map_map]
  conv => rhs; rw [← List.map_id (Positional.digits 256 width n)]
  apply List.map_congr_left
  intro d hd
  have hlt : d < 256 := Positional.digits_lt (by decide) hd
  simpa using Nat.mod_eq_of_lt hlt

theorem toNatLE_ofNatLE {width n : Nat} (hn : n < 256 ^ width) :
    toNatLE (ofNatLE width n) = n := by
  rw [toNatLE, map_toNat_ofNatLE, Positional.value_digits hn]

theorem ofNatLE_toNatLE (b : Bytes) : ofNatLE b.length (toNatLE b) = b := by
  have hdigits : ∀ d ∈ b.map UInt8.toNat, d < 256 := by
    intro d hd
    obtain ⟨x, -, rfl⟩ := List.mem_map.1 hd
    exact x.toNat_lt
  have h := Positional.digits_value hdigits
  rw [List.length_map] at h
  rw [ofNatLE, toNatLE, h, List.map_map]
  conv => rhs; rw [← List.map_id b]
  apply List.map_congr_left
  intro x _
  simp

/-- A 64-bit word as eight bytes, least significant byte first. -/
def ofUInt64 (n : UInt64) : Bytes := ofNatLE 8 n.toNat

/-- The 64-bit word that eight bytes denote, least significant byte first. -/
def toUInt64 (b : Bytes) : UInt64 := UInt64.ofNat (toNatLE b)

@[simp] theorem ofUInt64_length (n : UInt64) : (ofUInt64 n).length = 8 := ofNatLE_length _ _

@[simp] theorem toUInt64_ofUInt64 (n : UInt64) : toUInt64 (ofUInt64 n) = n := by
  rw [toUInt64, ofUInt64, toNatLE_ofNatLE (by simpa using n.toNat_lt), UInt64.ofNat_toNat]

theorem ofUInt64_toUInt64 {b : Bytes} (hb : b.length = 8) : ofUInt64 (toUInt64 b) = b := by
  have hlt : toNatLE b < 2 ^ 64 := by
    have h := toNatLE_lt b
    rw [hb] at h
    exact h
  rw [ofUInt64, toUInt64, UInt64.toNat_ofNat_of_lt' hlt]
  conv => lhs; rw [← hb]
  exact ofNatLE_toNatLE b

theorem ofUInt64_injective {m n : UInt64} (h : ofUInt64 m = ofUInt64 n) : m = n := by
  rw [← toUInt64_ofUInt64 m, h, toUInt64_ofUInt64]

end Bytes

/-- A string of exactly 32 bytes. -/
@[ext] structure Bytes32 where
  toList : Bytes
  length_eq : toList.length = 32
  deriving DecidableEq

namespace Bytes32

attribute [simp] Bytes32.length_eq

/-- The string of 32 zero bytes. -/
def zero : Bytes32 := ⟨List.replicate 32 0, rfl⟩

instance : Inhabited Bytes32 := ⟨zero⟩

/-- A byte string as one of 32 bytes, when it has that length. -/
def ofList? (b : Bytes) : Option Bytes32 :=
  if h : b.length = 32 then some ⟨b, h⟩ else none

@[simp] theorem ofList?_toList (x : Bytes32) : ofList? x.toList = some x := by
  simp [ofList?]

theorem ofList?_eq_some_iff {b : Bytes} {x : Bytes32} : ofList? b = some x ↔ x.toList = b := by
  constructor
  · intro h
    by_cases hb : b.length = 32
    · simp [ofList?, hb] at h
      rw [← h]
    · simp [ofList?, hb] at h
  · rintro rfl
    exact ofList?_toList x

/-- Lexicographic order of the bytes. -/
instance : LE Bytes32 := ⟨fun a b => a.toList ≤ b.toList⟩

/-- Lexicographic order of the bytes. -/
instance : LT Bytes32 := ⟨fun a b => a.toList < b.toList⟩

instance (a b : Bytes32) : Decidable (a ≤ b) := inferInstanceAs (Decidable (a.toList ≤ b.toList))

instance (a b : Bytes32) : Decidable (a < b) := inferInstanceAs (Decidable (a.toList < b.toList))

theorem le_trans {a b c : Bytes32} (hab : a ≤ b) (hbc : b ≤ c) : a ≤ c :=
  List.le_trans (show a.toList ≤ b.toList from hab) hbc

theorem le_total (a b : Bytes32) : a ≤ b ∨ b ≤ a := List.le_total a.toList b.toList

theorem le_antisymm {a b : Bytes32} (hab : a ≤ b) (hba : b ≤ a) : a = b :=
  Bytes32.ext (List.le_antisymm (show a.toList ≤ b.toList from hab) hba)

end Bytes32

/-- The output of a hash function. -/
abbrev Digest := Bytes32

/-- The address of an account, which is also the public key of whoever signs for it. -/
abbrev Address := Bytes32

end Surety
