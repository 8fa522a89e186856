import Surety.Proofs.Bitmap.Account
import Surety.Proofs.Stake.Decoding

/-!
# Claims accounts with every slice checked

Reading and writing a claims account once more, with each slice and each copy written out so that it may
fail: a slice that ends behind the data, a copy between different lengths, or a field that is cut off gives
`none`.  The fields of a header are read one by one, as those of a stake account are.

* `ClaimsHeader.ofAccountData_eq_ok_iff` says which data starts with a header.
* `ClaimBitmap.checkedOfAccountData_eq` says that reading never fails and gives the answer of
  `ClaimBitmap.ofAccountData`, for all data.
* `ClaimBitmap.checkedToAccountData_eq` says the same of writing.
-/

namespace Surety

namespace Bytes

/-- The bytes from one place up to another. -/
def slice? (data : Bytes) (start stop : Nat) : Option Bytes :=
  if start ≤ stop ∧ stop ≤ data.length then some ((data.take stop).drop start) else none

/-- Put bytes in the place of as many others. -/
def overwrite? (data : Bytes) (start stop : Nat) (bytes : Bytes) : Option Bytes :=
  if start ≤ stop ∧ stop ≤ data.length ∧ bytes.length = stop - start then
    some (data.take start ++ (bytes ++ data.drop stop))
  else none

theorem slice?_of_le {data : Bytes} {start stop : Nat} (h : start ≤ stop) (hstop : stop ≤ data.length) :
    slice? data start stop = some ((data.take stop).drop start) :=
  if_pos ⟨h, hstop⟩

theorem slice?_zero {data : Bytes} {stop : Nat} (hstop : stop ≤ data.length) :
    slice? data 0 stop = some (data.take stop) :=
  slice?_of_le (Nat.zero_le stop) hstop

/-- Bytes between two others are replaced. -/
theorem overwrite?_append (front old rest : Bytes) {bytes : Bytes} {start stop : Nat}
    (hstart : front.length = start) (hstop : start + old.length = stop)
    (hbytes : bytes.length = old.length) :
    overwrite? (front ++ (old ++ rest)) start stop bytes = some (front ++ (bytes ++ rest)) := by
  have hfits : start ≤ stop ∧ stop ≤ (front ++ (old ++ rest)).length
      ∧ bytes.length = stop - start := by
    simp only [List.length_append]
    omega
  have hdrop : (front ++ (old ++ rest)).drop stop = rest := by
    rw [← List.append_assoc]
    exact List.drop_left' (by rw [List.length_append, hstart, hstop])
  rw [overwrite?, if_pos hfits, List.take_left' hstart, hdrop]

/-- Bytes in front are replaced. -/
theorem overwrite?_zero (old rest : Bytes) {bytes : Bytes} {stop : Nat} (hstop : old.length = stop)
    (hbytes : bytes.length = old.length) :
    overwrite? (old ++ rest) 0 stop bytes = some (bytes ++ rest) := by
  have hwhole := overwrite?_append [] old rest rfl ((Nat.zero_add _).trans hstop) hbytes
  rwa [List.nil_append, List.nil_append] at hwhole

end Bytes

open Stake (Reader)

namespace ClaimsHeader

/-! ## Headers -/

/-- The fields behind the mark. -/
def fields (header : ClaimsHeader) : Bytes :=
  header.settlement.toList ++ ([header.version] ++ Bytes.ofUInt64 header.maxRecords)

theorem fields_length (header : ClaimsHeader) : header.fields.length = 41 := by
  simp [fields]

theorem front_eq (header : ClaimsHeader) : header.front = claimsDiscriminator ++ header.fields := rfl

/-- Read the fields behind the mark. -/
def readFields : Reader ClaimsHeader := fun data => do
  let (settlement, data) ← Reader.address data
  let (version, data) ← Reader.byte data
  let (maxRecords, data) ← Reader.word data
  return (⟨settlement, version, maxRecords⟩, data)

theorem exact_readFields : Reader.Exact readFields fields 41 := by
  have hread : readFields = Reader.map (fun p => ⟨p.1, p.2.1, p.2.2⟩)
      (Reader.pair Reader.address (Reader.pair Reader.byte Reader.word)) := by
    funext data
    simp [readFields, Reader.map, Reader.pair, Option.bind_assoc]
  rw [hread]
  exact (Reader.exact_address.pair (Reader.exact_byte.pair Reader.exact_word)).map
    (fun header => ⟨(header.settlement, header.version, header.maxRecords), rfl⟩) (fun _ => rfl)

/-- The mark, cut out of a hash. -/
def checkedDiscriminator : Option Bytes := do
  let mark ← Bytes.slice? (Sha256.hash (ascii "account:SettlementClaims")).toList 0 8
  Bytes.overwrite? (List.replicate 8 0) 0 8 mark

/-- Read the header of an account. -/
def checkedOfAccountData (data : Bytes) : Option (Result ClaimsHeader) :=
  if data.length < claimsHeaderSize then
    some (.error (.invalidClaimsData (.dataTooShort data.length claimsHeaderSize)))
  else do
    let mark ← Bytes.slice? data 0 8
    let discriminator ← checkedDiscriminator
    if mark ≠ discriminator then some (.error (.invalidClaimsData .discriminator))
    else
      let fields ← Bytes.slice? data 8 claimsHeaderSize
      let (header, _) ← readFields fields
      some (.ok header)

/-- Write a header over the start of a buffer. -/
def checkedWriteTo (header : ClaimsHeader) (buffer : Bytes) : Option (Result Bytes) :=
  if buffer.length < claimsHeaderSize then
    some (.error (.invalidClaimsData (.bufferTooShort buffer.length claimsHeaderSize)))
  else do
    let buffer ← Bytes.overwrite? buffer 0 claimsHeaderSize (List.replicate claimsHeaderSize 0)
    let discriminator ← checkedDiscriminator
    let buffer ← Bytes.overwrite? buffer 0 8 discriminator
    let buffer ← Bytes.overwrite? buffer 8 (8 + header.fields.length) header.fields
    some (.ok buffer)

theorem checkedDiscriminator_eq : checkedDiscriminator = some claimsDiscriminator := by
  have hcopy := Bytes.overwrite?_zero (List.replicate 8 0) [] List.length_replicate
    (claimsDiscriminator_length.trans List.length_replicate.symm)
  rw [List.append_nil, List.append_nil] at hcopy
  rw [checkedDiscriminator, Bytes.slice?_zero (by simp), ← claimsDiscriminator, Option.bind_eq_bind,
    Option.bind_some, hcopy]

/-- Data of the size of a header that starts with the mark starts with a header. -/
theorem exists_front_append {data : Bytes} (hsize : claimsHeaderSize ≤ data.length)
    (hmark : data.take 8 = claimsDiscriminator) :
    ∃ (header : ClaimsHeader) (rest : Bytes), 7 ≤ rest.length ∧ data = header.front ++ rest := by
  have hlength : 41 ≤ (data.drop 8).length := by
    rw [List.length_drop]
    rw [claimsHeaderSize] at hsize
    omega
  obtain ⟨header, rest, hfields⟩ := exact_readFields.exists_of_le _ hlength
  have hdata : data = header.front ++ rest := by
    rw [front_eq, List.append_assoc, ← hfields, ← hmark, List.take_append_drop]
  refine ⟨header, rest, ?_, hdata⟩
  rw [hdata, List.length_append, front_length, claimsHeaderSize] at hsize
  omega

/-- A header is read from data that starts with it and has its size. -/
theorem ofAccountData_eq_ok_iff {data : Bytes} {header : ClaimsHeader} :
    ofAccountData data = .ok header ↔
      ∃ rest : Bytes, 7 ≤ rest.length ∧ data = header.front ++ rest := by
  constructor
  · intro h
    have hread := h
    unfold ofAccountData at h
    split at h
    · cases h
    · rename_i hsize
      split at h
      · cases h
      · rename_i hmark
        obtain ⟨other, rest, hrest, rfl⟩ := exists_front_append (Nat.not_lt.1 hsize) (not_not.1 hmark)
        rw [ofAccountData_front_append other hrest] at hread
        cases hread
        exact ⟨rest, hrest, rfl⟩
  · rintro ⟨rest, hrest, rfl⟩
    exact ofAccountData_front_append header hrest

/-- The fields and the unused bytes of a header, cut out. -/
theorem slice?_fields (header : ClaimsHeader) {rest : Bytes} (h : 7 ≤ rest.length) :
    Bytes.slice? (header.front ++ rest) 8 claimsHeaderSize = some (header.fields ++ rest.take 7) := by
  have hsize : claimsHeaderSize ≤ (header.front ++ rest).length := by
    rw [List.length_append, front_length, claimsHeaderSize]
    omega
  have hspare : claimsHeaderSize - 8 - 41 = 7 := rfl
  rw [Bytes.slice?_of_le (by decide) hsize, List.drop_take, front_eq, List.append_assoc,
    List.drop_left' claimsDiscriminator_length, List.take_append, fields_length, hspare,
    List.take_of_length_le (by rw [fields_length]; decide)]

/-- Reading a header cuts nothing out of the data that is not there. -/
theorem checkedOfAccountData_eq (data : Bytes) :
    checkedOfAccountData data = some (ofAccountData data) := by
  rw [checkedOfAccountData, checkedDiscriminator_eq]
  by_cases hshort : data.length < claimsHeaderSize
  · rw [if_pos hshort, ofAccountData, dif_pos hshort]
  · have hmarked : Bytes.slice? data 0 8 = some (data.take 8) :=
      Bytes.slice?_zero (Nat.le_trans (by decide) (Nat.not_lt.1 hshort))
    rw [if_neg hshort, hmarked, Option.bind_eq_bind, Option.bind_some, Option.bind_eq_bind,
      Option.bind_some]
    by_cases hmark : data.take 8 = claimsDiscriminator
    · obtain ⟨header, rest, hrest, hdata⟩ := exists_front_append (Nat.not_lt.1 hshort) hmark
      have hslice := slice?_fields header hrest
      have hread := ofAccountData_front_append header hrest
      rw [← hdata] at hslice hread
      rw [hread, if_neg (not_not.2 hmark), hslice, Option.bind_some,
        exact_readFields.encode_append, Option.bind_some]
    · rw [ofAccountData, dif_neg hshort, if_pos hmark, if_pos hmark]

/-- Writing a header puts everything where the buffer has room for it. -/
theorem checkedWriteTo_eq (header : ClaimsHeader) (buffer : Bytes) :
    checkedWriteTo header buffer = some (header.writeTo buffer) := by
  rw [checkedWriteTo, writeTo]
  by_cases hshort : buffer.length < claimsHeaderSize
  · rw [if_pos hshort, if_pos hshort]
  · obtain ⟨old, rest, hold, rfl⟩ := Reader.exists_append_of_le (Nat.not_lt.1 hshort)
    -- zeros first, then the mark, then the fields; the last seven zeros stay
    have hfill : Bytes.overwrite? (old ++ rest) 0 claimsHeaderSize (List.replicate claimsHeaderSize 0)
        = some (List.replicate 8 0 ++ (List.replicate 41 0 ++ (List.replicate 7 0 ++ rest))) :=
      Bytes.overwrite?_zero old rest hold (List.length_replicate.trans hold.symm)
    have hmark : Bytes.overwrite? (List.replicate 8 0 ++ (List.replicate 41 0
          ++ (List.replicate 7 0 ++ rest))) 0 8 claimsDiscriminator
        = some (claimsDiscriminator ++ (List.replicate 41 0 ++ (List.replicate 7 0 ++ rest))) :=
      Bytes.overwrite?_zero (List.replicate 8 0) _ rfl claimsDiscriminator_length
    have hfields : Bytes.overwrite? (claimsDiscriminator ++ (List.replicate 41 0
          ++ (List.replicate 7 0 ++ rest))) 8 (8 + header.fields.length) header.fields
        = some (claimsDiscriminator ++ (header.fields ++ (List.replicate 7 0 ++ rest))) :=
      Bytes.overwrite?_append claimsDiscriminator (List.replicate 41 0) _ (by simp)
        (by simp [fields_length]) (by simp [fields_length])
    rw [if_neg hshort, if_neg hshort, List.drop_left' hold, encode_append, front_eq,
      List.append_assoc]
    simp only [hfill, hmark, hfields, checkedDiscriminator_eq, Option.bind_eq_bind, Option.bind_some]

end ClaimsHeader

namespace ClaimBitmap

/-! ## Bitmaps -/

/-- The bitmap behind the header of an account; behind data that is too short for a header there is
nothing. -/
def checkedOfAccountBytes (maxRecords : UInt64) (raw : Bytes) : Option (Result ClaimBitmap) :=
  if hlimit : maxRecords ≤ recordLimit then
    let bits := (Bytes.slice? raw claimsHeaderSize raw.length).getD []
    if bits.length < Bitmap.sizeInBytes maxRecords then
      some (.error (.bitmapSizeMismatch (Bitmap.sizeInBytes maxRecords) bits.length))
    else do
      let data ← Bytes.slice? bits 0 (Bitmap.sizeInBytes maxRecords)
      if hsize : data.toArray.size = Bitmap.sizeInBytes maxRecords then
        some (.ok ⟨maxRecords, data.toArray, hsize, hlimit⟩)
      else none
  else some (.error (.tooManyRecords maxRecords recordLimit))

/-- The header and the bitmap of an account. -/
def checkedOfAccountData (raw : Bytes) : Option (Result (ClaimsHeader × ClaimBitmap)) := do
  match ← ClaimsHeader.checkedOfAccountData raw with
  | .error e => some (.error e)
  | .ok header =>
      match ← checkedOfAccountBytes header.maxRecords raw with
      | .error e => some (.error e)
      | .ok bitmap => some (.ok (header, bitmap))

/-- The account that holds the bitmap of a settlement. -/
def checkedToAccountData (bitmap : ClaimBitmap) (settlement : Address) : Option (Result Bytes) := do
  let buffer := List.replicate (claimsHeaderSize + bitmap.data.size) 0
  match ← ClaimsHeader.checkedWriteTo ⟨settlement, 0, bitmap.maxRecords⟩ buffer with
  | .error e => some (.error e)
  | .ok data =>
      let data ← Bytes.overwrite? data claimsHeaderSize data.length bitmap.data.toList
      some (.ok data)

theorem checkedOfAccountBytes_eq (maxRecords : UInt64) (raw : Bytes) :
    checkedOfAccountBytes maxRecords raw = some (ofAccountBytes maxRecords raw) := by
  have hbits : (Bytes.slice? raw claimsHeaderSize raw.length).getD [] = raw.drop claimsHeaderSize := by
    by_cases hshort : claimsHeaderSize ≤ raw.length
    · rw [Bytes.slice?_of_le hshort (Nat.le_refl _), List.take_length, Option.getD_some]
    · rw [Bytes.slice?, if_neg (fun h => hshort h.1), Option.getD_none,
        List.drop_eq_nil_of_le (Nat.le_of_not_le hshort)]
  rw [checkedOfAccountBytes, ofAccountBytes]
  by_cases hlimit : maxRecords ≤ recordLimit
  · rw [dif_pos hlimit, dif_pos hlimit, hbits]
    by_cases hshort : (raw.drop claimsHeaderSize).length < Bitmap.sizeInBytes maxRecords
    · simp only [if_pos hshort, dif_pos hshort]
    · have hslice : Bytes.slice? (raw.drop claimsHeaderSize) 0 (Bitmap.sizeInBytes maxRecords)
          = some ((raw.drop claimsHeaderSize).take (Bitmap.sizeInBytes maxRecords)) :=
        Bytes.slice?_zero (Nat.not_lt.1 hshort)
      have hsize : ((raw.drop claimsHeaderSize).take (Bitmap.sizeInBytes maxRecords)).toArray.size
          = Bitmap.sizeInBytes maxRecords := by
        rw [List.size_toArray, List.length_take_of_le (Nat.not_lt.1 hshort)]
      simp only [if_neg hshort, dif_neg hshort, hslice, bind, Option.bind, dif_pos hsize]
  · rw [dif_neg hlimit, dif_neg hlimit]

/-- Reading an account cuts nothing out of the data that is not there. -/
theorem checkedOfAccountData_eq (raw : Bytes) :
    checkedOfAccountData raw = some (ofAccountData raw) := by
  rw [checkedOfAccountData, ofAccountData, ClaimsHeader.checkedOfAccountData_eq]
  cases ClaimsHeader.ofAccountData raw with
  | error e => rfl
  | ok header =>
      simp only [bind, Option.bind, checkedOfAccountBytes_eq, Except.bind]
      cases ofAccountBytes header.maxRecords raw with
      | error e => rfl
      | ok bitmap => rfl

/-- Writing an account puts everything where there is room for it, and is never refused. -/
theorem checkedToAccountData_eq (bitmap : ClaimBitmap) (settlement : Address) :
    checkedToAccountData bitmap settlement = some (.ok (bitmap.toAccountData settlement)) := by
  have hbuffer : List.replicate (claimsHeaderSize + bitmap.data.size) (0 : UInt8)
      = List.replicate claimsHeaderSize 0 ++ List.replicate bitmap.data.size 0 :=
    List.replicate_append_replicate.symm
  have hheader : ClaimsHeader.writeTo ⟨settlement, 0, bitmap.maxRecords⟩
      (List.replicate (claimsHeaderSize + bitmap.data.size) 0)
        = .ok (ClaimsHeader.encode ⟨settlement, 0, bitmap.maxRecords⟩
          ++ List.replicate bitmap.data.size 0) := by
    rw [ClaimsHeader.writeTo, if_neg (by simp), hbuffer, List.drop_left' (by simp)]
  have hcopy := @Bytes.overwrite?_append (ClaimsHeader.encode ⟨settlement, 0, bitmap.maxRecords⟩)
    (List.replicate bitmap.data.size 0) [] bitmap.data.toList claimsHeaderSize
    (claimsHeaderSize + bitmap.data.size) (by simp [claimsHeaderSize]) (by simp) (by simp)
  rw [List.append_nil, List.append_nil] at hcopy
  rw [checkedToAccountData, ClaimsHeader.checkedWriteTo_eq, hheader, toAccountData]
  simp only [Option.bind_eq_bind, Option.bind_some, List.length_append, ClaimsHeader.encode_length,
    List.length_replicate]
  rw [claimsHeaderSize] at hcopy ⊢
  rw [hcopy]
  rfl

end ClaimBitmap

end Surety
