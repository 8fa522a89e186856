import Surety.Bitmap.Bits
import Surety.Bitmap.Header

/-!
# The bitmap of claimed records

One bit per leaf of a settlement, of which every claim sets its own.  The type fixes the number of
bytes and keeps the records within the limit of an account.
-/

namespace Surety

/-- The claimed records of one settlement. -/
structure ClaimBitmap where
  maxRecords : UInt64
  data : Array UInt8
  size_eq : data.size = Bitmap.sizeInBytes maxRecords
  limit : maxRecords ≤ recordLimit
  deriving DecidableEq

/-- The size of a claims account for a number of records. -/
def claimsAccountSize (maxRecords : UInt64) : Nat :=
  claimsHeaderSize + Bitmap.sizeInBytes maxRecords

namespace ClaimBitmap

/-- A bitmap without claims. -/
def empty (maxRecords : UInt64) : Result ClaimBitmap :=
  if hlimit : maxRecords ≤ recordLimit then
    .ok ⟨maxRecords, Array.replicate (Bitmap.sizeInBytes maxRecords) 0, by simp, hlimit⟩
  else .error (.tooManyRecords maxRecords recordLimit)

/-- The bitmap behind the header of an account with a known number of records. -/
def ofAccountBytes (maxRecords : UInt64) (raw : Bytes) : Result ClaimBitmap :=
  if hlimit : maxRecords ≤ recordLimit then
    let bits := raw.drop claimsHeaderSize
    if hsize : bits.length < Bitmap.sizeInBytes maxRecords then
      .error (.bitmapSizeMismatch (Bitmap.sizeInBytes maxRecords) bits.length)
    else
      .ok ⟨maxRecords, (bits.take (Bitmap.sizeInBytes maxRecords)).toArray, by
        simp only [List.size_toArray, List.length_take]
        omega, hlimit⟩
  else .error (.tooManyRecords maxRecords recordLimit)

/-- The header and the bitmap of an account. -/
def ofAccountData (raw : Bytes) : Result (ClaimsHeader × ClaimBitmap) := do
  let header ← ClaimsHeader.ofAccountData raw
  let bitmap ← ofAccountBytes header.maxRecords raw
  return (header, bitmap)

/-- The account that holds the bitmap of a settlement. -/
def toAccountData (bitmap : ClaimBitmap) (settlement : Address) : Bytes :=
  ClaimsHeader.encode ⟨settlement, 0, bitmap.maxRecords⟩ ++ bitmap.data.toList

/-- Whether a record is claimed. -/
def get (bitmap : ClaimBitmap) (index : UInt64) : Result Bool :=
  Bitmap.isSet bitmap.maxRecords index bitmap.data

/-- Claim a record that is not claimed yet. -/
def trySet (bitmap : ClaimBitmap) (index : UInt64) : Result ClaimBitmap :=
  match hset : Bitmap.trySet bitmap.maxRecords index bitmap.data with
  | .error e => .error e
  | .ok data =>
      .ok ⟨bitmap.maxRecords, data, (Bitmap.trySet_size hset).trans bitmap.size_eq, bitmap.limit⟩

/-- The number of set bits. -/
def countClaimed (bitmap : ClaimBitmap) : Nat := Bitmap.countSet bitmap.maxRecords bitmap.data

/-- How a bitmap shows in messages. -/
def describe (bitmap : ClaimBitmap) : String :=
  "ClaimBitmap \x7b max_records: " ++ toString bitmap.maxRecords
    ++ ", set_bits: " ++ toString bitmap.countClaimed
    ++ ", bitmap_projection: \"" ++ Bitmap.describeBits bitmap.maxRecords bitmap.data ++ "\" \x7d"

end ClaimBitmap

end Surety
