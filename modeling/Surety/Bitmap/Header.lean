import Surety.Address.Derivation
import Surety.Error

/-!
# The header of a claims account

A claims account starts with 56 bytes: a mark of 8 bytes, the settlement, a version byte, the number
of records, and zeros.  The version and the zeros are not checked on reading.  The largest permitted
account limits the number of records.
-/

namespace Surety

/-- The number of bytes in front of the bitmap. -/
def claimsHeaderSize : Nat := 56

/-- The largest size of an account. -/
def maxAccountSize : Nat := 10485760

/-- The number of records that the largest account can hold. -/
def recordLimit : UInt64 := UInt64.ofNat ((maxAccountSize - claimsHeaderSize) * 8)

/-- The mark that a claims account starts with. -/
def claimsDiscriminator : Bytes := (Sha256.hash (ascii "account:SettlementClaims")).toList.take 8

/-- What stands in front of the bitmap. -/
structure ClaimsHeader where
  settlement : Address
  version : UInt8
  maxRecords : UInt64
  deriving DecidableEq

namespace ClaimsHeader

/-- The bytes of a header. -/
def encode (header : ClaimsHeader) : Bytes :=
  claimsDiscriminator ++ (header.settlement.toList ++ (header.version
    :: (Bytes.ofUInt64 header.maxRecords ++ List.replicate 7 0)))

/-- Read the header of an account. -/
def ofAccountData (data : Bytes) : Result ClaimsHeader :=
  if hsize : data.length < claimsHeaderSize then
    .error (.invalidClaimsData (.dataTooShort data.length claimsHeaderSize))
  else if data.take 8 ≠ claimsDiscriminator then .error (.invalidClaimsData .discriminator)
  else
    .ok
      { settlement := ⟨(data.drop 8).take 32, by
          simp only [claimsHeaderSize] at hsize
          simp only [List.length_take, List.length_drop]
          omega⟩
        version := data.getD 40 0
        maxRecords := Bytes.toUInt64 ((data.drop 41).take 8) }

/-- Write a header over the start of a buffer. -/
def writeTo (header : ClaimsHeader) (buffer : Bytes) : Result Bytes :=
  if buffer.length < claimsHeaderSize then
    .error (.invalidClaimsData (.bufferTooShort buffer.length claimsHeaderSize))
  else .ok (header.encode ++ buffer.drop claimsHeaderSize)

@[simp] theorem claimsDiscriminator_length : claimsDiscriminator.length = 8 := by
  simp [claimsDiscriminator]

@[simp] theorem encode_length (header : ClaimsHeader) : header.encode.length = 56 := by
  simp [encode]

end ClaimsHeader

/-- Refuse more records than the largest account can hold. -/
def checkRecordLimit (maxRecords : UInt64) : Result Unit :=
  if recordLimit < maxRecords then .error (.tooManyRecords maxRecords recordLimit) else .ok ()

end Surety
