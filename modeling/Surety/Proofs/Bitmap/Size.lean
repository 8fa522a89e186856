import Mathlib.Algebra.Order.BigOperators.Group.List
import Mathlib.Algebra.Order.Floor.Div
import Surety.Proofs.Bitmap.Bit
import Surety.Word

/-!
# Sizes and counts of bitmaps in 64 bits

How many bytes a bitmap needs and how many of its bits are on is worked out in 64-bit words.  Here
every sum on the way may fail.

* `checkedSize_eq` says that the size of a bitmap never does, for any number of records, and
  `sizeInBytes_eq_ceilDiv` what this size is.
* `checkedCount_eq_some_iff` says that a count fails only when as many bits are on as 64 bits cannot
  tell; by `countSet_le` that takes `2 ^ 61` bytes.
-/

namespace Surety

namespace Bitmap

/-! ## Sizes -/

/-- The number of bytes for a number of records, worked out from the place behind the last record. -/
def checkedSize (maxRecords : UInt64) : Option UInt64 := do
  let size ←
    if maxRecords % 8 = 0 then some (maxRecords / 8) else addChecked (maxRecords / 8) 1
  return if size < 1 then 1 else size

/-- A bitmap has as many bytes as its records make up by eights, rounded up, and at least one. -/
theorem sizeInBytes_eq_ceilDiv (maxRecords : UInt64) :
    sizeInBytes maxRecords = max 1 (maxRecords.toNat ⌈/⌉ 8) := rfl

/-- The size of a bitmap fits 64 bits for every number of records. -/
theorem checkedSize_eq (maxRecords : UInt64) :
    ∃ size, checkedSize maxRecords = some size ∧ size.toNat = sizeInBytes maxRecords := by
  have hwhole : (maxRecords / 8).toNat = maxRecords.toNat / 8 := UInt64.toNat_div _ _
  have hrest : maxRecords % 8 = 0 ↔ maxRecords.toNat % 8 = 0 := by
    rw [← UInt64.toNat_inj, UInt64.toNat_mod]
    rfl
  have hlt := maxRecords.toNat_lt
  have hreserve : ∀ size : UInt64,
      (if size < 1 then 1 else size : UInt64).toNat = max 1 size.toNat := by
    intro size
    split
    · rename_i hlt
      rw [UInt64.lt_iff_toNat_lt, UInt64.toNat_one] at hlt
      rw [UInt64.toNat_one]
      omega
    · rename_i hle
      rw [UInt64.lt_iff_toNat_lt, UInt64.toNat_one] at hle
      omega
  rw [checkedSize, sizeInBytes]
  by_cases hfull : maxRecords % 8 = 0
  · refine ⟨_, by rw [if_pos hfull]; rfl, ?_⟩
    rw [hrest] at hfull
    rw [hreserve, hwhole]
    omega
  · have hsum : (maxRecords / 8).toNat + (1 : UInt64).toNat < 2 ^ 64 := by
      rw [hwhole, UInt64.toNat_one]
      omega
    refine ⟨_, by rw [if_neg hfull, addChecked_of_lt hsum]; rfl, ?_⟩
    rw [hrest] at hfull
    rw [hreserve, toNat_add_of_lt hsum, hwhole, UInt64.toNat_one]
    omega

/-! ## Counts -/

/-- The number of bits of some bytes that are on, added up byte by byte. -/
def checkedTotal (bytes : List UInt8) (start : UInt64) : Option UInt64 :=
  bytes.foldlM (fun total b => addChecked total (UInt64.ofNat (popCount b))) start

/-- The number of set bits in the bytes of a bitmap. -/
def checkedCount (maxRecords : UInt64) (data : Array UInt8) : Option UInt64 :=
  checkedTotal (data.toList.take (sizeInBytes maxRecords)) 0

theorem popCount_le (b : UInt8) : popCount b ≤ 8 := by
  rw [popCount_eq_count]
  exact Nat.count_le _

theorem checkedTotal_eq_some_iff {bytes : List UInt8} {start total : UInt64} :
    checkedTotal bytes start = some total ↔
      start.toNat + (bytes.map popCount).sum = total.toNat := by
  induction bytes generalizing start with
  | nil => simp [checkedTotal, UInt64.toNat_inj]
  | cons b rest ih =>
      have hbyte : (UInt64.ofNat (popCount b)).toNat = popCount b :=
        UInt64.toNat_ofNat_of_lt' (Nat.lt_of_le_of_lt (popCount_le b) (by decide))
      rw [checkedTotal, List.foldlM_cons, List.map_cons, List.sum_cons]
      cases hsum : addChecked start (UInt64.ofNat (popCount b)) with
      | none =>
          have hover := addChecked_eq_none_iff.1 hsum
          have hlt := total.toNat_lt
          rw [hbyte] at hover
          constructor
          · intro h
            cases h
          · intro h
            omega
      | some next =>
          have hnext := addChecked_eq_some_iff.1 hsum
          rw [hbyte] at hnext
          change checkedTotal rest next = some total ↔ _
          rw [ih, ← hnext, Nat.add_assoc]

theorem countSet_eq_sum (maxRecords : UInt64) (data : Array UInt8) :
    countSet maxRecords data
      = ((data.toList.take (sizeInBytes maxRecords)).map popCount).sum := by
  rw [countSet, ← Array.foldl_toList, List.sum_eq_foldl, List.foldl_map]
  simp

/-- A count that is added up in 64 bits is the number of bits that are on, whenever 64 bits can tell. -/
theorem checkedCount_eq_some_iff {maxRecords count : UInt64} {data : Array UInt8} :
    checkedCount maxRecords data = some count ↔ count.toNat = countSet maxRecords data := by
  rw [checkedCount, checkedTotal_eq_some_iff, countSet_eq_sum, UInt64.toNat_zero, Nat.zero_add,
    eq_comm]

/-- No more bits are on than there are. -/
theorem countSet_le (maxRecords : UInt64) (data : Array UInt8) :
    countSet maxRecords data ≤ 8 * data.size := by
  have hsum : ((data.toList.take (sizeInBytes maxRecords)).map popCount).sum
      ≤ ((data.toList.take (sizeInBytes maxRecords)).map popCount).length • 8 := by
    refine List.sum_le_card_nsmul _ 8 fun count hcount => ?_
    obtain ⟨b, -, rfl⟩ := List.mem_map.1 hcount
    exact popCount_le b
  have hlength : (data.toList.take (sizeInBytes maxRecords)).length ≤ data.size :=
    (List.length_take_le' _ _).trans_eq Array.length_toList
  rw [List.length_map, smul_eq_mul] at hsum
  rw [countSet_eq_sum]
  omega

end Bitmap

end Surety
