import Surety.Proofs.Bitmap.Size
import Surety.Proofs.Bitmap.Slices
import Surety.Proofs.Settlement.Reload

/-!
# Which claims accounts are loaded

Claims are loaded from any bytes next to a settlement.  What is asked of these bytes is one list; loading
stops at the first entry that does not hold.

* `Claims.requirements` is this list, in terms of places in the bytes, each entry with its refusal.
* `Claims.refused_or_loaded` says that loading does what the list says.
* `Claims.loading_of_account` adds what the loaded claims are and which account they are saved to.
-/

namespace Surety

namespace ClaimBitmap

/-! ## The bytes behind the header -/

section

variable {maxRecords : UInt64} {raw : Bytes}

theorem ofAccountBytes_of_limit_lt (h : recordLimit < maxRecords) :
    ofAccountBytes maxRecords raw = .error (.tooManyRecords maxRecords recordLimit) := by
  rw [ofAccountBytes, dif_neg (UInt64.not_le.2 h)]

theorem ofAccountBytes_of_lt (hlimit : maxRecords ≤ recordLimit)
    (h : raw.length - claimsHeaderSize < Bitmap.sizeInBytes maxRecords) :
    ofAccountBytes maxRecords raw
      = .error (.bitmapSizeMismatch (Bitmap.sizeInBytes maxRecords)
        (raw.length - claimsHeaderSize)) := by
  rw [← List.length_drop] at h ⊢
  rw [ofAccountBytes, dif_pos hlimit]
  exact dif_pos h

theorem ofAccountBytes_of_le (hlimit : maxRecords ≤ recordLimit)
    (h : Bitmap.sizeInBytes maxRecords ≤ raw.length - claimsHeaderSize) :
    ∃ bitmap, ofAccountBytes maxRecords raw = .ok bitmap := by
  rw [← List.length_drop] at h
  rw [ofAccountBytes, dif_pos hlimit]
  exact ⟨_, dif_neg (Nat.not_lt.2 h)⟩

/-- The bytes of a bitmap are those behind the header. -/
theorem getElem?_of_ofAccountBytes {bitmap : ClaimBitmap} {k : Nat}
    (h : ofAccountBytes maxRecords raw = .ok bitmap) (hk : k < bitmap.data.size) :
    bitmap.data[k]? = raw[56 + k]? := by
  rw [bitmap.size_eq, (parts_of_ofAccountBytes h).1] at hk
  rw [(parts_of_ofAccountBytes h).2, List.getElem?_toArray, List.getElem?_take_of_lt hk,
    List.getElem?_drop, claimsHeaderSize]

end

/-- The account of a bitmap is not larger than an account may be. -/
theorem claimsAccountSize_le {maxRecords : UInt64} (h : maxRecords ≤ recordLimit) :
    claimsAccountSize maxRecords ≤ maxAccountSize := by
  have hlimit : recordLimit.toNat = 83885632 := by decide
  rw [UInt64.le_iff_toNat_le, hlimit] at h
  rw [claimsAccountSize, claimsHeaderSize, Bitmap.sizeInBytes, maxAccountSize]
  omega

end ClaimBitmap

namespace Claims

/-! ## What is asked of an account -/

/-- Something that is asked of an account, and the answer when it does not hold. -/
structure Requirement where
  holds : Bool
  refusal : Error

/-- The answer of the first requirement that does not hold. -/
def firstRefusal? : List Requirement → Option Error
  | [] => none
  | requirement :: rest => if requirement.holds then firstRefusal? rest else some requirement.refusal

theorem firstRefusal?_eq_none_iff {list : List Requirement} :
    firstRefusal? list = none ↔ ∀ requirement ∈ list, requirement.holds := by
  induction list with
  | nil => simp [firstRefusal?]
  | cons requirement rest ih =>
      rw [firstRefusal?, List.forall_mem_cons, ← ih]
      by_cases h : requirement.holds <;> simp [h]

theorem firstRefusal?_of_holds {condition : Bool} (h : condition = true) (e : Error)
    (rest : List Requirement) : firstRefusal? (⟨condition, e⟩ :: rest) = firstRefusal? rest :=
  if_pos h

theorem firstRefusal?_of_fails {condition : Bool} (h : condition = false) (e : Error)
    (rest : List Requirement) : firstRefusal? (⟨condition, e⟩ :: rest) = some e :=
  if_neg (by simp [h])

/-- The number of records that an account announces. -/
def announcedRecords (data : Bytes) : UInt64 := Bytes.toUInt64 ((data.drop 41).take 8)

/-- The settlement that an account names, when it is long enough to name one. -/
def namedSettlement (data : Bytes) : Address :=
  (Bytes32.ofList? ((data.drop 8).take 32)).getD Bytes32.zero

/-- What is asked of an account, in this order. -/
def requirements (settlement : Settlement) (config : Config) (data : Bytes) : List Requirement :=
  let records := announcedRecords data
  let size := max 1 (records.toNat ⌈/⌉ 8)
  [⟨56 ≤ data.length, .invalidClaimsData (.dataTooShort data.length 56)⟩,
    ⟨data.take 8 = claimsDiscriminator, .invalidClaimsData .discriminator⟩,
    ⟨records ≤ recordLimit, .tooManyRecords records recordLimit⟩,
    ⟨size ≤ data.length - 56, .bitmapSizeMismatch size (data.length - 56)⟩,
    ⟨(data.drop 8).take 32 = (settlement.address config).toList,
      .settlementMismatch (settlement.address config) (namedSettlement data)⟩,
    ⟨records = settlement.maxMerkleNodes,
      .invalidClaimsData (.recordCount records settlement.maxMerkleNodes)⟩]

theorem announcedRecords_front_append (header : ClaimsHeader) (rest : Bytes) :
    announcedRecords (header.front ++ rest) = header.maxRecords := by
  rw [announcedRecords, ClaimsHeader.take_maxRecords, Bytes.toUInt64_ofUInt64]

section

variable {settlement : Settlement} {config : Config} {data : Bytes}

theorem ofAccountData_of_refused {e : Error} (h : ClaimBitmap.ofAccountData data = .error e) :
    ofAccountData settlement config data = .error e := by
  rw [ofAccountData, h]

theorem ofAccountData_of_read {header : ClaimsHeader} {bitmap : ClaimBitmap}
    (h : ClaimBitmap.ofAccountData data = .ok (header, bitmap)) :
    ofAccountData settlement config data
      = if header.settlement ≠ settlement.address config then
          .error (.settlementMismatch (settlement.address config) header.settlement)
        else if header.maxRecords ≠ settlement.maxMerkleNodes then
          .error (.invalidClaimsData (.recordCount header.maxRecords settlement.maxMerkleNodes))
        else .ok ⟨settlement.address config, settlement, some bitmap⟩ := by
  rw [ofAccountData, h]

/-- Data that starts with no header is refused as the first two requirements say. -/
theorem refused_of_header {e : Error} (h : ClaimsHeader.ofAccountData data = .error e) :
    firstRefusal? (requirements settlement config data) = some e ∧
      ofAccountData settlement config data = .error e := by
  refine ⟨?_, ofAccountData_of_refused (by rw [ClaimBitmap.ofAccountData, h]; rfl)⟩
  unfold ClaimsHeader.ofAccountData at h
  split at h
  · rename_i hshort
    cases h
    exact firstRefusal?_of_fails (decide_eq_false (Nat.not_le.2 hshort)) _ _
  · rename_i hsize
    split at h
    · rename_i hmark
      have hlong : 56 ≤ data.length := Nat.not_lt.1 hsize
      cases h
      rw [requirements, firstRefusal?_of_holds (decide_eq_true hlong)]
      exact firstRefusal?_of_fails (decide_eq_false hmark) _ _
    · cases h

/-- Data that starts with a header is refused for the first of the other requirements that does not
hold. -/
theorem firstRefusal?_of_header {header : ClaimsHeader}
    (h : ClaimsHeader.ofAccountData data = .ok header) :
    firstRefusal? (requirements settlement config data) = firstRefusal?
      [⟨header.maxRecords ≤ recordLimit, .tooManyRecords header.maxRecords recordLimit⟩,
        ⟨Bitmap.sizeInBytes header.maxRecords ≤ data.length - claimsHeaderSize,
          .bitmapSizeMismatch (Bitmap.sizeInBytes header.maxRecords)
            (data.length - claimsHeaderSize)⟩,
        ⟨header.settlement = settlement.address config,
          .settlementMismatch (settlement.address config) header.settlement⟩,
        ⟨header.maxRecords = settlement.maxMerkleNodes,
          .invalidClaimsData (.recordCount header.maxRecords settlement.maxMerkleNodes)⟩] := by
  obtain ⟨rest, hrest, hdata⟩ := ClaimsHeader.ofAccountData_eq_ok_iff.1 h
  have hsize : 56 ≤ data.length := by
    rw [hdata, List.length_append, ClaimsHeader.front_length]
    omega
  have hmark : data.take 8 = claimsDiscriminator := by
    rw [hdata, ClaimsHeader.take_mark]
  have hrecords : announcedRecords data = header.maxRecords := by
    rw [hdata, announcedRecords_front_append]
  have hsettlement : (data.drop 8).take 32 = header.settlement.toList := by
    rw [hdata, ClaimsHeader.take_settlement]
  have hnamed : namedSettlement data = header.settlement := by
    rw [namedSettlement, hsettlement, Bytes32.ofList?_toList, Option.getD_some]
  rw [requirements, firstRefusal?_of_holds (decide_eq_true hsize),
    firstRefusal?_of_holds (decide_eq_true hmark), hrecords, hnamed, hsettlement]
  simp only [← Bytes32.ext_iff]
  rfl

/-- Loading is refused for the first requirement that does not hold, or all of them hold and the claims
are loaded. -/
theorem refused_or_loaded :
    (∃ e, firstRefusal? (requirements settlement config data) = some e ∧
      ofAccountData settlement config data = .error e) ∨
    firstRefusal? (requirements settlement config data) = none ∧
      ∃ claims, ofAccountData settlement config data = .ok claims := by
  cases hheader : ClaimsHeader.ofAccountData data with
  | error e => exact .inl ⟨e, refused_of_header hheader⟩
  | ok header =>
      have hread := ClaimBitmap.ofAccountData_of_header hheader
      rw [firstRefusal?_of_header hheader]
      by_cases hlimit : header.maxRecords ≤ recordLimit
      · rw [firstRefusal?_of_holds (decide_eq_true hlimit)]
        by_cases hfits : Bitmap.sizeInBytes header.maxRecords ≤ data.length - claimsHeaderSize
        · obtain ⟨bitmap, hbitmap⟩ := ClaimBitmap.ofAccountBytes_of_le hlimit hfits
          rw [hbitmap] at hread
          rw [firstRefusal?_of_holds (decide_eq_true hfits), ofAccountData_of_read hread]
          by_cases haddress : header.settlement = settlement.address config
          · rw [firstRefusal?_of_holds (decide_eq_true haddress), if_neg (not_not.2 haddress)]
            by_cases hcount : header.maxRecords = settlement.maxMerkleNodes
            · rw [firstRefusal?_of_holds (decide_eq_true hcount), if_neg (not_not.2 hcount)]
              exact .inr ⟨rfl, _, rfl⟩
            · rw [firstRefusal?_of_fails (decide_eq_false hcount), if_pos hcount]
              exact .inl ⟨_, rfl, rfl⟩
          · rw [firstRefusal?_of_fails (decide_eq_false haddress), if_pos haddress]
            exact .inl ⟨_, rfl, rfl⟩
        · rw [firstRefusal?_of_fails (decide_eq_false hfits)]
          rw [ClaimBitmap.ofAccountBytes_of_lt hlimit (Nat.not_le.1 hfits)] at hread
          exact .inl ⟨_, rfl, ofAccountData_of_refused hread⟩
      · rw [firstRefusal?_of_fails (decide_eq_false hlimit)]
        rw [ClaimBitmap.ofAccountBytes_of_limit_lt (UInt64.not_le.1 hlimit)] at hread
        exact .inl ⟨_, rfl, ofAccountData_of_refused hread⟩

/-! ## What is loaded -/

/-- Loaded claims have the bitmap behind the header that the data starts with. -/
theorem header_of_loaded {claims : Claims} (h : ofAccountData settlement config data = .ok claims) :
    ∃ (header : ClaimsHeader) (bitmap : ClaimBitmap) (rest : Bytes),
      data = header.front ++ rest ∧ header.settlement = settlement.address config ∧
      bitmap.maxRecords = header.maxRecords ∧
      ClaimBitmap.ofAccountBytes header.maxRecords data = .ok bitmap ∧
      claims = ⟨settlement.address config, settlement, some bitmap⟩ := by
  obtain ⟨header, bitmap, hread, hsettlement, -, hclaims⟩ := ofAccountData_eq_ok_iff.1 h
  obtain ⟨hheader, hbits⟩ := ClaimBitmap.reads_of_ofAccountData hread
  obtain ⟨rest, -, hdata⟩ := ClaimsHeader.ofAccountData_eq_ok_iff.1 hheader
  exact ⟨header, bitmap, rest, hdata, hsettlement, (ClaimBitmap.parts_of_ofAccountBytes hbits).1, hbits,
    hclaims⟩

/-- A loaded leaf is claimed when its bit in the account is on. -/
theorem isClaimed_of_loaded {claims : Claims} {index : UInt64}
    (h : ofAccountData settlement config data = .ok claims) (hindex : index < announcedRecords data) :
    ∃ byte, data[56 + index.toNat / 8]? = some byte ∧
      claims.isClaimed index = .ok (byte.toNat.testBit (index.toNat % 8)) := by
  obtain ⟨header, bitmap, rest, hdata, -, hrecords, hbits, rfl⟩ := header_of_loaded h
  rw [hdata, announcedRecords_front_append, ← hrecords] at hindex
  have hbyte : index.toNat / 8 < bitmap.data.size := by
    have hroom := Bitmap.le_sizeInBytes bitmap.maxRecords
    rw [UInt64.lt_iff_toNat_lt] at hindex
    rw [bitmap.size_eq]
    omega
  have hread : data[56 + index.toNat / 8]? = some bitmap.data[index.toNat / 8] := by
    rw [← ClaimBitmap.getElem?_of_ofAccountBytes hbits hbyte, Array.getElem?_eq_getElem hbyte]
  refine ⟨_, hread, Bitmap.isSet_eq_ok_iff.2 ⟨hindex, hbyte, ?_⟩⟩
  rw [Bitmap.bit, Array.getElem?_eq_getElem hbyte, Option.getD_some]

/-- Loaded claims are saved to an account of their own size, which has the bytes that were looked at. -/
theorem toAccountData_of_loaded {claims : Claims}
    (h : ofAccountData settlement config data = .ok claims) :
    ∃ out, claims.toAccountData = .ok out ∧
      out.length = claimsAccountSize (announcedRecords data) ∧ out.length ≤ maxAccountSize ∧
      out.take 40 = data.take 40 ∧ (out.drop 41).take 8 = (data.drop 41).take 8 ∧
      out.drop 56 = (data.drop 56).take (Bitmap.sizeInBytes (announcedRecords data)) := by
  obtain ⟨header, bitmap, rest, hdata, hsettlement, hrecords, hbits, rfl⟩ := header_of_loaded h
  have hannounced : announcedRecords data = bitmap.maxRecords := by
    rw [hdata, announcedRecords_front_append, hrecords]
  have hlength : (bitmap.toAccountData (settlement.address config)).length
      = claimsAccountSize bitmap.maxRecords := by
    rw [ClaimBitmap.toAccountData, List.length_append, ClaimsHeader.encode_length,
      Array.length_toList, bitmap.size_eq, claimsAccountSize, claimsHeaderSize]
  refine ⟨bitmap.toAccountData (settlement.address config), rfl, ?_, ?_, ?_, ?_, ?_⟩
  · rw [hannounced, hlength]
  · rw [hlength]
    exact ClaimBitmap.claimsAccountSize_le bitmap.limit
  · rw [ClaimBitmap.toAccountData, ClaimsHeader.encode_append, hdata, ClaimsHeader.take_front_append,
      ClaimsHeader.take_front_append, hsettlement]
  · rw [ClaimBitmap.toAccountData, ClaimsHeader.encode_append, hdata, ClaimsHeader.take_maxRecords,
      ClaimsHeader.take_maxRecords, hrecords]
  · rw [ClaimBitmap.toAccountData, List.drop_left' (ClaimsHeader.encode_length _), hannounced, hrecords,
      (ClaimBitmap.parts_of_ofAccountBytes hbits).2]
    rfl

end

/-- Any data is loaded next to any settlement exactly when nothing that is asked of it fails, and the first
requirement that does not hold gives the refusal; nothing is cut out of the data that is not there.  Once
loaded, a leaf is claimed when its bit behind the header is on, and the claims are saved to an account of
just their size, again without a copy that does not fit, in which the mark, the settlement, the number of
records and the bitmap stand as they were read. -/
theorem loading_of_account (settlement : Settlement) (config : Config) (data : Bytes) :
    ((∃ claims, ofAccountData settlement config data = .ok claims) ↔
      ∀ requirement ∈ requirements settlement config data, requirement.holds) ∧
    (∀ e, ofAccountData settlement config data = .error e ↔
      firstRefusal? (requirements settlement config data) = some e) ∧
    ClaimBitmap.checkedOfAccountData data = some (ClaimBitmap.ofAccountData data) ∧
    ∀ claims, ofAccountData settlement config data = .ok claims →
      (∀ index < announcedRecords data, ∃ byte, data[56 + index.toNat / 8]? = some byte ∧
        claims.isClaimed index = .ok (byte.toNat.testBit (index.toNat % 8))) ∧
      (∃ bitmap, claims.bitmap = some bitmap ∧
        bitmap.checkedToAccountData claims.address = some claims.toAccountData) ∧
      ∃ out, claims.toAccountData = .ok out ∧
        out.length = claimsAccountSize (announcedRecords data) ∧ out.length ≤ maxAccountSize ∧
        out.take 40 = data.take 40 ∧ (out.drop 41).take 8 = (data.drop 41).take 8 ∧
        out.drop 56 = (data.drop 56).take (Bitmap.sizeInBytes (announcedRecords data)) := by
  refine ⟨?_, ?_, ClaimBitmap.checkedOfAccountData_eq data, ?_⟩
  · rw [← firstRefusal?_eq_none_iff]
    rcases @refused_or_loaded settlement config data with ⟨e, hrefusal, herror⟩ | ⟨hnone, hloaded⟩
    · simp [hrefusal, herror]
    · exact iff_of_true hloaded hnone
  · intro e
    rcases @refused_or_loaded settlement config data with
      ⟨e', hrefusal, herror⟩ | ⟨hnone, claims, hloaded⟩
    · simp [hrefusal, herror]
    · simp [hnone, hloaded]
  · intro claims h
    refine ⟨fun index hindex => isClaimed_of_loaded h hindex, ?_, toAccountData_of_loaded h⟩
    obtain ⟨header, bitmap, rest, -, -, -, -, rfl⟩ := header_of_loaded h
    exact ⟨bitmap, rfl, ClaimBitmap.checkedToAccountData_eq bitmap _⟩

end Claims

end Surety
