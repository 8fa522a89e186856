import Mathlib.Data.Set.Card
import Surety.Proofs.Bitmap.Account
import Surety.Proofs.Bitmap.Marking

/-!
# Bits behind the last record

A record is read at its own bit, and the count is taken over whole bytes.  The last byte has bits of no
record when the records do not fill it, and the one byte of a bitmap without records has only such bits.
Bytes in which they are on are not refused: these bits are loaded and counted, but no call reads or
changes them.

* `countSet_eq_add_spareBits` splits the count at the last record.
* `spareBits_afterMarks` says that calls leave the part behind the last record alone.
* `ClaimBitmap.Obtained` lists where bitmaps come from, and `countClaimed_of_claims` says how far their
  count is from the number of claimed records, after any claims.
-/

namespace Surety

namespace Bitmap

/-- The number of bits that are on in the bytes of a bitmap without belonging to a record. -/
def spareBits (maxRecords : UInt64) (data : Array UInt8) : Nat :=
  Nat.count (fun offset => bit data (maxRecords.toNat + offset) = true)
    (8 * sizeInBytes maxRecords - maxRecords.toNat)

section

variable {maxRecords : UInt64} {data other : Array UInt8}

/-- The bits that are counted are those of the records and the spare ones. -/
theorem countSet_eq_add_spareBits :
    countSet maxRecords data
      = Nat.count (fun position => bit data position = true) maxRecords.toNat
        + spareBits maxRecords data := by
  rw [countSet_eq_count, spareBits, ← Nat.count_add, Nat.add_sub_of_le (le_sizeInBytes maxRecords)]

theorem spareBits_eq_zero_iff :
    spareBits maxRecords data = 0 ↔
      ∀ position, maxRecords.toNat ≤ position → position < 8 * sizeInBytes maxRecords →
        bit data position = false := by
  rw [spareBits, Nat.count_iff_forall_not]
  constructor
  · intro h position hbehind hinside
    have hoff := h (position - maxRecords.toNat) (by omega)
    rwa [Nat.add_sub_of_le hbehind, Bool.not_eq_true] at hoff
  · intro h offset hinside
    rw [h _ (Nat.le_add_right _ _) (by omega)]
    exact Bool.false_ne_true

/-- Bytes with the same bits behind the last record have the same number of spare ones. -/
theorem spareBits_congr
    (h : ∀ position, maxRecords.toNat ≤ position → position < 8 * sizeInBytes maxRecords →
      bit data position = bit other position) :
    spareBits maxRecords data = spareBits maxRecords other := by
  rw [spareBits, spareBits, Nat.count_eq_card_filter_range, Nat.count_eq_card_filter_range]
  congr 1
  apply Finset.filter_congr
  intro offset hoffset
  have hinside := Finset.mem_range.1 hoffset
  rw [h _ (Nat.le_add_right _ _) (by omega)]

/-- Marking records changes none of the spare bits. -/
theorem spareBits_afterMarks (indices : List UInt64) :
    spareBits maxRecords (afterMarks maxRecords data indices) = spareBits maxRecords data := by
  have hrecorded := recorded_marks maxRecords data indices
  refine spareBits_congr fun position hbehind _ => ?_
  rw [Bool.eq_iff_iff, hrecorded.bit_eq_true_iff]
  refine or_iff_left ?_
  rintro ⟨index, hmarked, rfl⟩
  -- a record that was marked can be read, so it is not behind the last one
  have hread := (hrecorded.isSet_eq_true_iff index).2 (.inr hmarked)
  have hrange := UInt64.lt_iff_toNat_lt.1 (isSet_eq_ok_iff.1 hread).1
  omega

end

end Bitmap

namespace ClaimBitmap

section

variable (bitmap : ClaimBitmap) (indices : List UInt64)

/-- The records of a bitmap that are read as claimed. -/
def claimed : Set UInt64 := {index | index < bitmap.maxRecords ∧ bitmap.get index = .ok true}

/-- The claimed records are as many as the bits of records that are on. -/
theorem ncard_claimed :
    bitmap.claimed.ncard
      = Nat.count (fun position => Bitmap.bit bitmap.data position = true)
        bitmap.maxRecords.toNat := by
  have himage : UInt64.toNat '' bitmap.claimed
      = ↑((Finset.range bitmap.maxRecords.toNat).filter (Bitmap.bit bitmap.data · = true)) := by
    ext position
    simp only [claimed, get_eq_ok_iff, Set.mem_image, Set.mem_ofPred_eq, Finset.coe_filter,
      Finset.mem_range]
    constructor
    · rintro ⟨index, ⟨hrange, -, hon⟩, rfl⟩
      exact ⟨UInt64.lt_iff_toNat_lt.1 hrange, hon⟩
    · rintro ⟨hrange, hon⟩
      have hposition : (UInt64.ofNat position).toNat = position :=
        UInt64.toNat_ofNat_of_lt' (hrange.trans bitmap.maxRecords.toNat_lt)
      rw [← hposition] at hrange hon
      exact ⟨_, ⟨UInt64.lt_iff_toNat_lt.2 hrange, UInt64.lt_iff_toNat_lt.2 hrange, hon⟩, hposition⟩
  have hinjective : Function.Injective UInt64.toNat := fun _ _ => UInt64.toNat_inj.1
  rw [← Set.ncard_image_of_injective _ hinjective, himage, Set.ncard_coe_finset,
    Nat.count_eq_card_filter_range]

theorem countClaimed_eq_ncard_add :
    bitmap.countClaimed
      = bitmap.claimed.ncard + Bitmap.spareBits bitmap.maxRecords bitmap.data := by
  rw [countClaimed, Bitmap.countSet_eq_add_spareBits, ncard_claimed]

/-- The count of a bitmap never fails: an account has far fewer bits than 64 bits can count. -/
theorem checkedCount_eq :
    ∃ count, Bitmap.checkedCount bitmap.maxRecords bitmap.data = some count ∧
      count.toNat = bitmap.countClaimed := by
  have hbits : bitmap.countClaimed ≤ 8 * bitmap.data.size :=
    Bitmap.countSet_le bitmap.maxRecords bitmap.data
  have hrecords := UInt64.le_iff_toNat_le.1 bitmap.limit
  have hlimit : recordLimit.toNat < 2 ^ 32 := by decide
  have hfits : bitmap.countClaimed < 2 ^ 64 := by
    rw [bitmap.size_eq, Bitmap.sizeInBytes] at hbits
    omega
  have hcount := UInt64.toNat_ofNat_of_lt' hfits
  exact ⟨_, Bitmap.checkedCount_eq_some_iff.2 hcount, hcount⟩

/-- Claim some records one after another; a claim that is refused leaves the bitmap as it was. -/
def claimAll : ClaimBitmap :=
  indices.foldl (fun bitmap index => (bitmap.trySet index).toOption.getD bitmap) bitmap

/-- Claiming records is marking them in the bytes of the bitmap. -/
theorem claimAll_eq :
    (bitmap.claimAll indices).maxRecords = bitmap.maxRecords ∧
      (bitmap.claimAll indices).data
        = Bitmap.afterMarks bitmap.maxRecords bitmap.data indices := by
  induction indices generalizing bitmap with
  | nil => exact ⟨rfl, rfl⟩
  | cons index rest ih =>
      have hstep : ((bitmap.trySet index).toOption.getD bitmap).maxRecords = bitmap.maxRecords ∧
          ((bitmap.trySet index).toOption.getD bitmap).data
            = (Bitmap.markInPlace bitmap.maxRecords index bitmap.data).2 := by
        rw [trySet]
        split
        · rename_i e hrefused
          rw [Bitmap.markInPlace_eq, hrefused]
          exact ⟨rfl, rfl⟩
        · rename_i next hset
          have hmark : (Bitmap.markInPlace bitmap.maxRecords index bitmap.data).2 = next := by
            rw [Bitmap.markInPlace_eq, hset]
          exact ⟨rfl, hmark.symm⟩
      obtain ⟨hrecords, hdata⟩ := ih ((bitmap.trySet index).toOption.getD bitmap)
      rw [hstep.1] at hrecords hdata
      rw [hstep.2] at hdata
      exact ⟨hrecords, hdata⟩

end

/-- Where bitmaps come from, with the bytes that were taken for their bits: none for a new bitmap, else
what stands behind the header. -/
inductive Obtained : Array UInt8 → ClaimBitmap → Prop
  | created {maxRecords : UInt64} {bitmap : ClaimBitmap} (h : empty maxRecords = .ok bitmap) :
      Obtained #[] bitmap
  | loaded {maxRecords : UInt64} {raw : Bytes} {bitmap : ClaimBitmap}
      (h : ofAccountBytes maxRecords raw = .ok bitmap) :
      Obtained (raw.drop claimsHeaderSize).toArray bitmap
  | read {raw : Bytes} {header : ClaimsHeader} {bitmap : ClaimBitmap}
      (h : ofAccountData raw = .ok (header, bitmap)) :
      Obtained (raw.drop claimsHeaderSize).toArray bitmap

section

variable {bits : Array UInt8} {bitmap : ClaimBitmap}

theorem bit_of_ofAccountBytes {maxRecords : UInt64} {raw : Bytes}
    (h : ofAccountBytes maxRecords raw = .ok bitmap) {position : Nat}
    (hinside : position < 8 * Bitmap.sizeInBytes bitmap.maxRecords) :
    Bitmap.bit bitmap.data position
      = Bitmap.bit (raw.drop claimsHeaderSize).toArray position := by
  obtain ⟨rfl, hdata⟩ := parts_of_ofAccountBytes h
  have hbyte : position / 8 < Bitmap.sizeInBytes bitmap.maxRecords := by omega
  rw [hdata, Bitmap.bit, Bitmap.bit, List.getElem?_toArray, List.getElem?_toArray,
    List.getElem?_take_of_lt hbyte]

/-- A bitmap has the bits that it was obtained from, those of no record included. -/
theorem Obtained.bit_eq (h : Obtained bits bitmap) {position : Nat}
    (hinside : position < 8 * Bitmap.sizeInBytes bitmap.maxRecords) :
    Bitmap.bit bitmap.data position = Bitmap.bit bits position := by
  cases h with
  | created h =>
      rw [(empty_eq_ok h).2.2 position]
      exact (Bitmap.bit_of_size_le (Nat.zero_le _)).symm
  | loaded h => exact bit_of_ofAccountBytes h hinside
  | read h => exact bit_of_ofAccountBytes (ofAccountBytes_of_ofAccountData h) hinside

/-- The count after any claims is above the number of claimed records by the spare bits of the bytes that
the bitmap was obtained from.  So the two agree exactly when these bytes have none, as for a new bitmap.
The count fits 64 bits. -/
theorem countClaimed_of_claims (h : Obtained bits bitmap) (indices : List UInt64) :
    (bitmap.claimAll indices).countClaimed
        = (bitmap.claimAll indices).claimed.ncard + Bitmap.spareBits bitmap.maxRecords bits ∧
      ((bitmap.claimAll indices).countClaimed = (bitmap.claimAll indices).claimed.ncard ↔
        ∀ position, bitmap.maxRecords.toNat ≤ position →
          position < 8 * Bitmap.sizeInBytes bitmap.maxRecords → Bitmap.bit bits position = false) ∧
      (empty bitmap.maxRecords = .ok bitmap →
        (bitmap.claimAll indices).countClaimed = (bitmap.claimAll indices).claimed.ncard) ∧
      ∃ count, Bitmap.checkedCount bitmap.maxRecords (bitmap.claimAll indices).data = some count ∧
        count.toNat = (bitmap.claimAll indices).countClaimed := by
  obtain ⟨hrecords, hdata⟩ := claimAll_eq bitmap indices
  have hspare : Bitmap.spareBits bitmap.maxRecords bitmap.data
      = Bitmap.spareBits bitmap.maxRecords bits :=
    Bitmap.spareBits_congr fun _ _ hinside => h.bit_eq hinside
  have hcount : (bitmap.claimAll indices).countClaimed
      = (bitmap.claimAll indices).claimed.ncard + Bitmap.spareBits bitmap.maxRecords bits := by
    rw [countClaimed_eq_ncard_add, hrecords, hdata, Bitmap.spareBits_afterMarks, hspare]
  have hagree : (bitmap.claimAll indices).countClaimed = (bitmap.claimAll indices).claimed.ncard ↔
      ∀ position, bitmap.maxRecords.toNat ≤ position →
        position < 8 * Bitmap.sizeInBytes bitmap.maxRecords → Bitmap.bit bits position = false := by
    rw [hcount, Nat.add_eq_left, Bitmap.spareBits_eq_zero_iff]
  refine ⟨hcount, hagree, ?_, hrecords ▸ checkedCount_eq (bitmap.claimAll indices)⟩
  intro hempty
  refine hagree.2 fun position _ hinside => ?_
  rw [← h.bit_eq hinside]
  exact (empty_eq_ok hempty).2.2 position

/-- Eleven records loaded from three bytes, with four bits on in the two bytes that are needed, one of them
of no record.  Of three claims one is accepted: four records are claimed then, and five bits are counted. -/
theorem countClaimed_of_loaded_records :
    ∃ bitmap, ofAccountBytes 11 (List.replicate 56 0 ++ [0x80, 0x16, 0xff]) = .ok bitmap ∧
      bitmap.data = #[0x80, 0x16] ∧ (bitmap.claimAll [8, 12, 9]).data = #[0x80, 0x17] ∧
      (bitmap.claimAll [8, 12, 9]).countClaimed = 5 ∧
      (bitmap.claimAll [8, 12, 9]).claimed.ncard = 4 := by
  let bitmap : ClaimBitmap := ⟨11, #[0x80, 0x16], rfl, by decide⟩
  have hloaded : ofAccountBytes 11 (List.replicate 56 0 ++ [0x80, 0x16, 0xff]) = .ok bitmap := by
    decide +kernel
  have hdata : (bitmap.claimAll [8, 12, 9]).data = #[0x80, 0x17] := by decide +kernel
  have hfive : (bitmap.claimAll [8, 12, 9]).countClaimed = 5 := by decide +kernel
  have hspare : Bitmap.spareBits bitmap.maxRecords
      ((List.replicate 56 0 ++ [0x80, 0x16, 0xff] : Bytes).drop claimsHeaderSize).toArray = 1 := by
    decide +kernel
  have hcount := (countClaimed_of_claims (.loaded hloaded) [8, 12, 9]).1
  rw [hfive, hspare] at hcount
  exact ⟨bitmap, hloaded, rfl, hdata, hfive, (Nat.succ.inj hcount).symm⟩

/-- Three records loaded from a byte with bits `0` and `3` on: two bits are counted, and one record is
claimed. -/
theorem countClaimed_of_spare_bits :
    ∃ bitmap, ofAccountBytes 3 (List.replicate 56 0 ++ [0x09]) = .ok bitmap ∧
      bitmap.get 0 = .ok true ∧ bitmap.get 1 = .ok false ∧ bitmap.get 2 = .ok false ∧
      bitmap.countClaimed = 2 ∧ bitmap.claimed.ncard = 1 := by
  refine ⟨⟨3, #[0x09], rfl, by decide⟩, by decide +kernel, by decide +kernel, by decide +kernel,
    by decide +kernel, by decide +kernel, ?_⟩
  rw [ncard_claimed]
  decide +kernel

end

end ClaimBitmap

end Surety
