import Surety.Number.Power

/-!
# Sums and differences of 64-bit amounts

Amounts are added and subtracted with a check, or up to the largest amount and down to zero.  Each
operation is tied to natural numbers by one equation.
-/

namespace Surety

/-- The sum of two amounts, when it fits 64 bits. -/
def addChecked (a b : UInt64) : Option UInt64 :=
  if a.toNat + b.toNat < 2 ^ 64 then some (a + b) else none

/-- The difference of two amounts, when it is not negative. -/
def subChecked (a b : UInt64) : Option UInt64 := if b ≤ a then some (a - b) else none

/-- The sum of two amounts, or the largest amount. -/
def addSaturating (a b : UInt64) : UInt64 :=
  if a.toNat + b.toNat < 2 ^ 64 then a + b else UInt64.ofNat (2 ^ 64 - 1)

/-- The difference of two amounts, or zero. -/
def subSaturating (a b : UInt64) : UInt64 := if b ≤ a then a - b else 0

/-- A sum that fits 64 bits does not wrap. -/
theorem toNat_add_of_lt {a b : UInt64} (h : a.toNat + b.toNat < 2 ^ 64) :
    (a + b).toNat = a.toNat + b.toNat := by
  rw [UInt64.toNat_add, Nat.mod_eq_of_lt h]

theorem addChecked_eq_some_iff {a b c : UInt64} :
    addChecked a b = some c ↔ a.toNat + b.toNat = c.toNat := by
  unfold addChecked
  constructor
  · intro h
    split at h
    · rename_i hlt
      cases h
      exact (toNat_add_of_lt hlt).symm
    · cases h
  · intro h
    have hc : c.toNat < 2 ^ 64 := c.toNat_lt
    rw [if_pos (by omega)]
    congr 1
    apply UInt64.toNat_inj.1
    rw [toNat_add_of_lt (by omega), h]

theorem addChecked_eq_none_iff {a b : UInt64} :
    addChecked a b = none ↔ 2 ^ 64 ≤ a.toNat + b.toNat := by
  unfold addChecked
  split <;> simp <;> omega

theorem addChecked_of_lt {a b : UInt64} (h : a.toNat + b.toNat < 2 ^ 64) :
    addChecked a b = some (a + b) :=
  if_pos h

theorem eq_add_of_addChecked {a b c : UInt64} (h : addChecked a b = some c) : c = a + b := by
  unfold addChecked at h
  split at h
  · exact (Option.some.inj h).symm
  · cases h

theorem subChecked_of_le {a b : UInt64} (h : b ≤ a) : subChecked a b = some (a - b) := if_pos h

theorem addSaturating_toNat (a b : UInt64) :
    (addSaturating a b).toNat = min (a.toNat + b.toNat) (2 ^ 64 - 1) := by
  unfold addSaturating
  split
  · rename_i hlt
    rw [toNat_add_of_lt hlt]
    omega
  · rw [UInt64.toNat_ofNat_of_lt' (by decide)]
    omega

theorem subSaturating_toNat (a b : UInt64) : (subSaturating a b).toNat = a.toNat - b.toNat := by
  unfold subSaturating
  split
  · rename_i hle
    exact UInt64.toNat_sub_of_le _ _ hle
  · rename_i hle
    rw [UInt64.le_iff_toNat_le] at hle
    simp
    omega

end Surety
