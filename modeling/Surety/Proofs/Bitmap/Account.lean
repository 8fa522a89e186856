import Mathlib.Tactic.Common
import Surety.Bitmap.ClaimBitmap

/-!
# Claims accounts read back

A claims account holds what a bitmap is: the settlement that it belongs to, the number of records and
the bytes.  What is written is read back, whatever follows the header, and a bitmap read from a
longer account than it needs is written to an account of just its own size.

* `ClaimsHeader.ofAccountData_front_append` reads a header, whatever stands in its unused bytes and
  behind it.
* `ClaimBitmap.ofAccountData_encode_append` reads a whole account with anything behind it, and
  `ofAccountData_toAccountData` one that was just written.

Which accounts are accepted is said in `Surety.Proofs.Settlement.Loading`.
-/

namespace Surety

namespace ClaimsHeader

/-- The part of a header that is looked at on reading.  The seven bytes behind it may be anything. -/
def front (header : ClaimsHeader) : Bytes :=
  claimsDiscriminator ++ (header.settlement.toList
    ++ (header.version :: Bytes.ofUInt64 header.maxRecords))

@[simp] theorem front_length (header : ClaimsHeader) : header.front.length = 49 := by
  simp [front]

section

variable (header : ClaimsHeader) (rest : Bytes)

theorem encode_append :
    header.encode ++ rest = header.front ++ (List.replicate 7 0 ++ rest) := by
  simp only [encode, front, List.append_assoc, List.cons_append]

/-- The parts of a header in front of other bytes, one behind the other. -/
theorem front_append :
    header.front ++ rest = claimsDiscriminator ++ (header.settlement.toList
      ++ (header.version :: (Bytes.ofUInt64 header.maxRecords ++ rest))) := by
  simp only [front, List.append_assoc, List.cons_append]

theorem take_mark : (header.front ++ rest).take 8 = claimsDiscriminator := by
  rw [front_append]
  exact List.take_left' (by simp)

theorem take_settlement :
    ((header.front ++ rest).drop 8).take 32 = header.settlement.toList := by
  rw [front_append, List.drop_left' (by simp)]
  exact List.take_left' (by simp)

theorem take_front_append :
    (header.front ++ rest).take 40 = claimsDiscriminator ++ header.settlement.toList := by
  rw [front_append, ← List.append_assoc]
  exact List.take_left' (by simp)

theorem drop_settlement :
    (header.front ++ rest).drop 40
      = header.version :: (Bytes.ofUInt64 header.maxRecords ++ rest) := by
  rw [show 40 = 8 + 32 by rfl, ← List.drop_drop, front_append, List.drop_left' (by simp)]
  exact List.drop_left' (by simp)

theorem getD_version : (header.front ++ rest).getD 40 0 = header.version := by
  rw [List.getD_eq_getElem?_getD, ← List.head?_drop, drop_settlement]
  rfl

theorem take_maxRecords :
    ((header.front ++ rest).drop 41).take 8 = Bytes.ofUInt64 header.maxRecords := by
  rw [show 41 = 40 + 1 by rfl, ← List.drop_drop, drop_settlement]
  exact List.take_left' (by simp)

end

/-- A header is read back, whatever stands in its last bytes and behind it. -/
theorem ofAccountData_front_append (header : ClaimsHeader) {rest : Bytes} (h : 7 ≤ rest.length) :
    ofAccountData (header.front ++ rest) = .ok header := by
  have hsize : ¬(header.front ++ rest).length < claimsHeaderSize := by
    rw [List.length_append, front_length, claimsHeaderSize]
    omega
  rw [ofAccountData, dif_neg hsize, if_neg (not_not.2 (take_mark header rest))]
  simp only [take_settlement, getD_version, take_maxRecords, Bytes.toUInt64_ofUInt64]

/-- A header that was written is read back, whatever stands behind it. -/
theorem ofAccountData_encode_append (header : ClaimsHeader) (rest : Bytes) :
    ofAccountData (header.encode ++ rest) = .ok header := by
  rw [encode_append]
  exact ofAccountData_front_append header (by simp)

end ClaimsHeader

namespace ClaimBitmap

/-- The bytes of a bitmap are read back from behind a header. -/
theorem ofAccountBytes_encode_append (bitmap : ClaimBitmap) (header : ClaimsHeader)
    (rest : Bytes) :
    ofAccountBytes bitmap.maxRecords (header.encode ++ (bitmap.data.toList ++ rest))
      = .ok bitmap := by
  have hbits : (header.encode ++ (bitmap.data.toList ++ rest)).drop claimsHeaderSize
      = bitmap.data.toList ++ rest := List.drop_left' (by simp [claimsHeaderSize])
  have hsize : bitmap.data.toList.length = Bitmap.sizeInBytes bitmap.maxRecords := by
    rw [Array.length_toList, bitmap.size_eq]
  have htake : (bitmap.data.toList ++ rest).take (Bitmap.sizeInBytes bitmap.maxRecords)
      = bitmap.data.toList := List.take_left' hsize
  have hlong : ¬(bitmap.data.toList ++ rest).length < Bitmap.sizeInBytes bitmap.maxRecords := by
    rw [List.length_append, hsize]
    omega
  rw [ofAccountBytes, dif_pos bitmap.limit]
  simp only [hbits, htake, hlong, dif_neg, not_false_eq_true]

/-- A bitmap that is read is for the number of records asked for, and its bytes are those behind the
header, as many as are needed. -/
theorem parts_of_ofAccountBytes {maxRecords : UInt64} {raw : Bytes} {bitmap : ClaimBitmap}
    (h : ofAccountBytes maxRecords raw = .ok bitmap) :
    bitmap.maxRecords = maxRecords ∧
      bitmap.data
        = ((raw.drop claimsHeaderSize).take (Bitmap.sizeInBytes maxRecords)).toArray := by
  unfold ofAccountBytes at h
  split at h
  · dsimp only at h
    split at h
    · cases h
    · cases h
      exact ⟨rfl, rfl⟩
  · cases h

theorem ofAccountData_of_header {raw : Bytes} {header : ClaimsHeader}
    (h : ClaimsHeader.ofAccountData raw = .ok header) :
    ofAccountData raw = (ofAccountBytes header.maxRecords raw).map (header, ·) := by
  rw [ofAccountData, h]
  cases hbits : ofAccountBytes header.maxRecords raw with
  | error e => simp [bind, Except.bind, hbits, Except.map]
  | ok bitmap => simp [bind, Except.bind, hbits, Except.map, pure, Except.pure]

/-- The header is read first, and then the bitmap behind it for the number of records that it says. -/
theorem reads_of_ofAccountData {raw : Bytes} {header : ClaimsHeader} {bitmap : ClaimBitmap}
    (h : ofAccountData raw = .ok (header, bitmap)) :
    ClaimsHeader.ofAccountData raw = .ok header ∧
      ofAccountBytes header.maxRecords raw = .ok bitmap := by
  cases hheader : ClaimsHeader.ofAccountData raw with
  | error e =>
      rw [ofAccountData, hheader] at h
      cases h
  | ok read =>
      rw [ofAccountData_of_header hheader] at h
      cases hbits : ofAccountBytes read.maxRecords raw with
      | error e =>
          rw [hbits] at h
          cases h
      | ok bits =>
          rw [hbits] at h
          cases h
          exact ⟨rfl, hbits⟩

theorem ofAccountBytes_of_ofAccountData {raw : Bytes} {header : ClaimsHeader} {bitmap : ClaimBitmap}
    (h : ofAccountData raw = .ok (header, bitmap)) :
    ofAccountBytes header.maxRecords raw = .ok bitmap :=
  (reads_of_ofAccountData h).2

theorem maxRecords_of_ofAccountData {raw : Bytes} {header : ClaimsHeader} {bitmap : ClaimBitmap}
    (h : ofAccountData raw = .ok (header, bitmap)) : bitmap.maxRecords = header.maxRecords :=
  (parts_of_ofAccountBytes (ofAccountBytes_of_ofAccountData h)).1

/-- An account is read as its header and the bitmap that the header announces, whatever the version is
and whatever follows. -/
theorem ofAccountData_encode_append {bitmap : ClaimBitmap} {header : ClaimsHeader}
    (hrecords : header.maxRecords = bitmap.maxRecords) (rest : Bytes) :
    ofAccountData (header.encode ++ (bitmap.data.toList ++ rest)) = .ok (header, bitmap) := by
  have hheader := ClaimsHeader.ofAccountData_encode_append header (bitmap.data.toList ++ rest)
  rw [ofAccountData_of_header hheader, hrecords, ofAccountBytes_encode_append]
  rfl

/-- An account that holds a bitmap is read back as its header and the bitmap. -/
theorem ofAccountData_toAccountData (bitmap : ClaimBitmap) (settlement : Address) :
    ofAccountData (bitmap.toAccountData settlement)
      = .ok (⟨settlement, 0, bitmap.maxRecords⟩, bitmap) := by
  have hread := @ofAccountData_encode_append bitmap ⟨settlement, 0, bitmap.maxRecords⟩ rfl []
  rwa [List.append_nil] at hread

end ClaimBitmap

end Surety
