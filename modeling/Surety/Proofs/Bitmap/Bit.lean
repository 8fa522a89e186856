import Mathlib.Data.Nat.Count
import Mathlib.Tactic.Common
import Surety.Bitmap.ClaimBitmap

/-!
# The bits of a bitmap

Bytes are seen as one row of bits, position `8 * k + j` being bit `j` of byte `k`.  Every operation
of a bitmap is one statement about this row:

* `isSet` reads the bit of a record, in or out of range;
* `trySet` turns on the bit of a record that is off, and no other;
* `countSet` counts the bits that are on;
* bytes of one size with the same bits are equal.

Positions behind the last byte count as off.
-/

namespace Surety

namespace Bitmap

/-- The bit at a position of some bytes. -/
def bit (data : Array UInt8) (position : Nat) : Bool :=
  (data[position / 8]?.getD 0).toNat.testBit (position % 8)

theorem bit_eq_testBit (data : Array UInt8) (k : Nat) {j : Nat} (hj : j < 8) :
    bit data (8 * k + j) = (data[k]?.getD 0).toNat.testBit j := by
  rw [bit, show (8 * k + j) / 8 = k by omega, show (8 * k + j) % 8 = j by omega]

theorem bit_of_size_le {data : Array UInt8} {position : Nat} (h : 8 * data.size ≤ position) :
    bit data position = false := by
  rw [bit, Array.getElem?_eq_none (by omega)]
  simp

theorem bit_replicate_zero (size position : Nat) :
    bit (Array.replicate size 0) position = false := by
  by_cases h : position / 8 < size
  · simp [bit, h]
  · exact bit_of_size_le (by simp; omega)

/-- Bytes are determined by their number and their bits. -/
theorem eq_of_bit_eq {data other : Array UInt8} (hsize : data.size = other.size)
    (hbit : ∀ position, bit data position = bit other position) : data = other := by
  apply Array.ext hsize
  intro k hk hk'
  apply UInt8.toNat_inj.1
  apply Nat.eq_of_testBit_eq
  intro j
  -- a byte has no bits but the eight that the row shows
  by_cases hj : j < 8
  · have h := hbit (8 * k + j)
    rwa [bit_eq_testBit _ _ hj, bit_eq_testBit _ _ hj, Array.getElem?_eq_getElem hk,
      Array.getElem?_eq_getElem hk'] at h
  · have hlarge : ∀ b : UInt8, b.toNat.testBit j = false := fun b =>
      Nat.testBit_lt_two_pow (Nat.lt_of_lt_of_le b.toNat_lt
        (Nat.pow_le_pow_right (by decide) (by omega)))
    rw [hlarge, hlarge]

/-! ## Reading and setting -/

/-- A record in range whose byte is there has the bit at its own position. -/
theorem isSet_eq (maxRecords index : UInt64) (data : Array UInt8) :
    isSet maxRecords index data
      = if maxRecords ≤ index then .error (.indexOutOfRange index maxRecords)
        else if data.size ≤ byteIndex index then
          .error (.bitmapSizeMismatch (byteIndex index + 1) data.size)
        else .ok (bit data index.toNat) := by
  unfold isSet
  by_cases hrange : maxRecords ≤ index
  · rw [if_pos hrange, if_pos hrange]
  · rw [if_neg hrange, if_neg hrange]
    by_cases hbyte : data.size ≤ byteIndex index
    · rw [if_pos hbyte, Array.getElem?_eq_none hbyte]
    · have hread : data[byteIndex index]? = some data[byteIndex index] :=
        Array.getElem?_eq_getElem (by omega)
      have hbit : bit data index.toNat
          = (data[byteIndex index]?.getD 0).toNat.testBit (bitIndex index) := rfl
      rw [if_neg hbyte, hbit, hread]
      rfl

theorem isSet_eq_ok_iff {maxRecords index : UInt64} {data : Array UInt8} {on : Bool} :
    isSet maxRecords index data = .ok on ↔
      index < maxRecords ∧ byteIndex index < data.size ∧ bit data index.toNat = on := by
  rw [isSet_eq]
  split
  · rename_i hle
    simp [UInt64.not_lt.2 hle]
  · rename_i hlt
    split
    · rename_i hbyte
      simp [Nat.not_lt.2 hbyte]
    · rename_i hbyte
      simp [UInt64.not_le.1 hlt, Nat.not_le.1 hbyte]

/-- The bytes of a bitmap have a bit for every record. -/
theorem le_sizeInBytes (maxRecords : UInt64) : maxRecords.toNat ≤ 8 * sizeInBytes maxRecords := by
  unfold sizeInBytes
  omega

/-- Setting the bit of a record changes the bit at its position and no other. -/
theorem bit_modify {data : Array UInt8} {index : UInt64} (hbyte : byteIndex index < data.size)
    (position : Nat) :
    bit (data.modify (byteIndex index) (· ||| mask (bitIndex index))) position
      = (bit data position || decide (position = index.toNat)) := by
  have hmask : (mask (bitIndex index)).toNat = 2 ^ bitIndex index :=
    mask_toNat (Nat.mod_lt _ (by decide))
  unfold byteIndex at hbyte
  unfold bit
  rw [Array.getElem?_modify]
  by_cases hsame : byteIndex index = position / 8
  · have hread : position / 8 < data.size := hsame ▸ hbyte
    have hposition : position = index.toNat ↔ bitIndex index = position % 8 := by
      unfold byteIndex at hsame
      unfold bitIndex
      omega
    rw [if_pos hsame, Array.getElem?_eq_getElem hread]
    simp [hmask, Nat.testBit_two_pow, hposition]
  · have hposition : position ≠ index.toNat := by
      intro heq
      exact hsame (by rw [heq]; rfl)
    simp [hsame, hposition]

/-- What a successful setting does to the row of bits. -/
theorem trySet_eq_ok_iff {maxRecords index : UInt64} {data data' : Array UInt8} :
    trySet maxRecords index data = .ok data' ↔
      isSet maxRecords index data = .ok false ∧ data'.size = data.size ∧
        ∀ position, bit data' position = (bit data position || decide (position = index.toNat)) := by
  have hbyte : isSet maxRecords index data = .ok false → byteIndex index < data.size :=
    fun hfree => (isSet_eq_ok_iff.1 hfree).2.1
  unfold trySet
  constructor
  · intro h
    split at h
    · cases h
    · cases h
    · rename_i hfree
      cases h
      exact ⟨hfree, Array.size_modify, bit_modify (hbyte hfree)⟩
  · rintro ⟨hfree, hsize, hbit⟩
    rw [hfree]
    dsimp only
    congr 1
    refine eq_of_bit_eq (by rw [Array.size_modify, hsize]) fun position => ?_
    rw [bit_modify (hbyte hfree), hbit]

/-- Setting is refused when reading is, and for a bit that is on. -/
theorem trySet_eq_error_iff {maxRecords index : UInt64} {data : Array UInt8} {e : Error} :
    trySet maxRecords index data = .error e ↔
      isSet maxRecords index data = .error e ∨
        isSet maxRecords index data = .ok true ∧ e = .alreadyClaimed index := by
  rw [trySet]
  cases isSet maxRecords index data with
  | error e' => simp
  | ok on => cases on <;> simp [eq_comm]

/-! ## Counting -/

theorem popCount_eq_count (b : UInt8) :
    popCount b = Nat.count (fun j => b.toNat.testBit j = true) 8 := by
  have hterm : ∀ k : Nat, (b.toNat >>> k) &&& 1 = if b.toNat.testBit k = true then 1 else 0 := by
    intro k
    rw [Nat.testBit_eq_decide_div_mod_eq, Nat.shiftRight_eq_div_pow, Nat.and_one_is_mod]
    rcases Nat.mod_two_eq_zero_or_one (b.toNat / 2 ^ k) with h | h <;> simp [h]
  have hzero : b.toNat &&& 1 = if b.toNat.testBit 0 = true then 1 else 0 := hterm 0
  simp only [popCount, UInt8.toNat_and, UInt8.toNat_shiftRight, UInt8.reduceToNat,
    Nat.reduceMod, hterm, hzero, Nat.count_succ, Nat.count_zero, Nat.zero_add]

/-- The bits of one byte are the eight positions that start at it. -/
theorem count_bit_byte (data : Array UInt8) (k : Nat) :
    Nat.count (fun j => bit data (8 * k + j) = true) 8 = popCount (data[k]?.getD 0) := by
  rw [popCount_eq_count, Nat.count_eq_card_filter_range, Nat.count_eq_card_filter_range]
  congr 1
  apply Finset.filter_congr
  intro j hj
  rw [bit_eq_testBit data k (Finset.mem_range.1 hj)]

/-- The count of the first bytes is the number of their positions that are on. -/
theorem count_take (data : Array UInt8) (size : Nat) :
    (data.toList.take size).foldl (fun count b => count + popCount b) 0
      = Nat.count (fun position => bit data position = true) (8 * size) := by
  induction size with
  | zero => simp
  | succ size ih =>
      rw [List.take_add_one, List.foldl_append, ih, Nat.mul_succ, Nat.count_add, count_bit_byte,
        Array.getElem?_toList]
      cases data[size]? with
      | none => rfl
      | some b => rfl

/-- The count of a bitmap is the number of its positions that are on. -/
theorem countSet_eq_count (maxRecords : UInt64) (data : Array UInt8) :
    countSet maxRecords data
      = Nat.count (fun position => bit data position = true) (8 * sizeInBytes maxRecords) := by
  rw [countSet, ← count_take, ← Array.foldl_toList]
  simp

/-- Turning on one bit that was off raises the count by one. -/
theorem countSet_of_trySet {maxRecords index : UInt64} {data data' : Array UInt8}
    (h : trySet maxRecords index data = .ok data') :
    countSet maxRecords data' = countSet maxRecords data + 1 := by
  obtain ⟨hfree, -, hbit⟩ := trySet_eq_ok_iff.1 h
  obtain ⟨hlt, -, hoff⟩ := isSet_eq_ok_iff.1 hfree
  have hrange : index.toNat < 8 * sizeInBytes maxRecords :=
    Nat.lt_of_lt_of_le (UInt64.lt_iff_toNat_lt.1 hlt) (le_sizeInBytes maxRecords)
  rw [countSet_eq_count, countSet_eq_count, Nat.count_eq_card_filter_range,
    Nat.count_eq_card_filter_range]
  -- the positions that are on are those from before and one new one
  have hinsert : (Finset.range (8 * sizeInBytes maxRecords)).filter (bit data' · = true)
      = insert index.toNat
        ((Finset.range (8 * sizeInBytes maxRecords)).filter (bit data · = true)) := by
    ext position
    simp only [Finset.mem_filter, Finset.mem_insert, Finset.mem_range, hbit,
      Bool.or_eq_true, decide_eq_true_eq]
    constructor
    · rintro ⟨hlt, hon | heq⟩
      · exact .inr ⟨hlt, hon⟩
      · exact .inl heq
    · rintro (rfl | ⟨hlt, hon⟩)
      · exact ⟨hrange, .inr rfl⟩
      · exact ⟨hlt, .inl hon⟩
  rw [hinsert, Finset.card_insert_of_notMem (by simp [hoff])]

end Bitmap

/-! ## Bitmaps of claims -/

namespace ClaimBitmap

/-- The bytes of a bitmap of claims are always there. -/
theorem get_eq (bitmap : ClaimBitmap) (index : UInt64) :
    bitmap.get index
      = if bitmap.maxRecords ≤ index then .error (.indexOutOfRange index bitmap.maxRecords)
        else .ok (Bitmap.bit bitmap.data index.toNat) := by
  rw [get, Bitmap.isSet_eq]
  by_cases hrange : bitmap.maxRecords ≤ index
  · rw [if_pos hrange, if_pos hrange]
  · have hbyte : ¬ bitmap.data.size ≤ Bitmap.byteIndex index := by
      rw [UInt64.le_iff_toNat_le] at hrange
      rw [bitmap.size_eq, Bitmap.sizeInBytes, Bitmap.byteIndex]
      omega
    rw [if_neg hrange, if_neg hrange, if_neg hbyte]

theorem get_eq_ok_iff {bitmap : ClaimBitmap} {index : UInt64} {claimed : Bool} :
    bitmap.get index = .ok claimed ↔
      index < bitmap.maxRecords ∧ Bitmap.bit bitmap.data index.toNat = claimed := by
  rw [get_eq]
  split
  · rename_i hle
    simp [UInt64.not_lt.2 hle]
  · rename_i hlt
    simp [UInt64.not_le.1 hlt]

theorem trySet_eq_ok_iff {bitmap bitmap' : ClaimBitmap} {index : UInt64} :
    bitmap.trySet index = .ok bitmap' ↔
      bitmap.get index = .ok false ∧ bitmap'.maxRecords = bitmap.maxRecords ∧
        ∀ position, Bitmap.bit bitmap'.data position
          = (Bitmap.bit bitmap.data position || decide (position = index.toNat)) := by
  unfold trySet
  constructor
  · intro h
    split at h
    · cases h
    · rename_i data hset
      cases h
      obtain ⟨hfree, -, hbit⟩ := Bitmap.trySet_eq_ok_iff.1 hset
      exact ⟨hfree, rfl, hbit⟩
  · rintro ⟨hfree, hmax, hbit⟩
    have hsize : bitmap'.data.size = bitmap.data.size := by
      rw [bitmap'.size_eq, bitmap.size_eq, hmax]
    have hset : Bitmap.trySet bitmap.maxRecords index bitmap.data = .ok bitmap'.data :=
      Bitmap.trySet_eq_ok_iff.2 ⟨hfree, hsize, hbit⟩
    split
    · rename_i hrefused
      rw [hset] at hrefused
      cases hrefused
    · rename_i data haccepted
      rw [hset] at haccepted
      obtain rfl := Except.ok.inj haccepted
      cases bitmap'
      cases hmax
      rfl

/-- A record in range that is not claimed yet can be claimed. -/
theorem exists_trySet {bitmap : ClaimBitmap} {index : UInt64}
    (hfree : bitmap.get index = .ok false) : ∃ bitmap', bitmap.trySet index = .ok bitmap' := by
  unfold trySet
  split
  · rename_i e hrefused
    change Bitmap.isSet bitmap.maxRecords index bitmap.data = .ok false at hfree
    simp [Bitmap.trySet, hfree] at hrefused
  · exact ⟨_, rfl⟩

/-- The record that was claimed is claimed afterwards. -/
theorem get_self_of_trySet {bitmap bitmap' : ClaimBitmap} {index : UInt64}
    (h : bitmap.trySet index = .ok bitmap') : bitmap'.get index = .ok true := by
  obtain ⟨hfree, hrecords, hbit⟩ := trySet_eq_ok_iff.1 h
  obtain ⟨hrange, -⟩ := get_eq_ok_iff.1 hfree
  rw [get_eq_ok_iff, hrecords, hbit]
  exact ⟨hrange, by simp⟩

/-- Setting a bit leaves every bit on that was on. -/
theorem get_of_trySet {bitmap bitmap' : ClaimBitmap} {index other : UInt64}
    (h : bitmap.trySet other = .ok bitmap') (hmarked : bitmap.get index = .ok true) :
    bitmap'.get index = .ok true := by
  obtain ⟨-, hrecords, hbit⟩ := trySet_eq_ok_iff.1 h
  obtain ⟨hrange, hon⟩ := get_eq_ok_iff.1 hmarked
  rw [get_eq_ok_iff, hrecords, hbit, hon]
  exact ⟨hrange, rfl⟩

theorem countClaimed_of_trySet {bitmap bitmap' : ClaimBitmap} {index : UInt64}
    (h : bitmap.trySet index = .ok bitmap') :
    bitmap'.countClaimed = bitmap.countClaimed + 1 := by
  unfold trySet at h
  split at h
  · cases h
  · rename_i data hset
    cases h
    exact Bitmap.countSet_of_trySet hset

/-- Bitmaps for one number of records are equal when they have the same bits. -/
theorem eq_of_bit_eq {bitmap other : ClaimBitmap} (hmax : bitmap.maxRecords = other.maxRecords)
    (hbit : ∀ position, Bitmap.bit bitmap.data position = Bitmap.bit other.data position) :
    bitmap = other := by
  have hdata : bitmap.data = other.data :=
    Bitmap.eq_of_bit_eq (by rw [bitmap.size_eq, other.size_eq, hmax]) hbit
  cases bitmap
  cases other
  cases hmax
  cases hdata
  rfl

/-- A bitmap without claims has no bit on. -/
theorem empty_eq_ok {maxRecords : UInt64} {bitmap : ClaimBitmap}
    (h : empty maxRecords = .ok bitmap) :
    bitmap.maxRecords = maxRecords ∧ bitmap.countClaimed = 0 ∧
      ∀ position, Bitmap.bit bitmap.data position = false := by
  unfold empty at h
  split at h
  · cases h
    have hoff := Bitmap.bit_replicate_zero (Bitmap.sizeInBytes maxRecords)
    refine ⟨rfl, ?_, hoff⟩
    rw [countClaimed, Bitmap.countSet_eq_count, Nat.count_eq_card_filter_range]
    simp [hoff]
  · cases h

end ClaimBitmap

end Surety
