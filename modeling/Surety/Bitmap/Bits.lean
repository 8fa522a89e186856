import Surety.Error

/-!
# Bits in a string of bytes

Record `index` is bit `index % 8` of byte `index / 8`, least significant bit first.  A record is
looked up only below the number of records; data that is too short for a record is refused, not
extended.  Setting a bit is the only change, and a set bit is never set again.  The count of set
bits covers the whole bytes of the bitmap, so it includes bits behind the last record.
-/

namespace Surety.Bitmap

/-- The byte that holds a record. -/
def byteIndex (index : UInt64) : Nat := index.toNat / 8

/-- The place of a record inside its byte. -/
def bitIndex (index : UInt64) : Nat := index.toNat % 8

/-- The number of bytes for a number of records; one byte is always there. -/
def sizeInBytes (maxRecords : UInt64) : Nat := max 1 ((maxRecords.toNat + 7) / 8)

/-- The byte in which one bit is set. -/
def mask (bit : Nat) : UInt8 := 1 <<< UInt8.ofNat bit

/-- The number of set bits of a byte. -/
def popCount (b : UInt8) : Nat :=
  (b &&& 1).toNat + ((b >>> 1) &&& 1).toNat + ((b >>> 2) &&& 1).toNat + ((b >>> 3) &&& 1).toNat
    + ((b >>> 4) &&& 1).toNat + ((b >>> 5) &&& 1).toNat + ((b >>> 6) &&& 1).toNat
    + ((b >>> 7) &&& 1).toNat

/-- Refuse data that is too short for a number of records. -/
def checkSize (maxRecords : UInt64) (data : Array UInt8) : Result Unit :=
  if data.size < sizeInBytes maxRecords then
    .error (.bitmapSizeMismatch (sizeInBytes maxRecords) data.size)
  else .ok ()

/-- Whether the bit of a record is set. -/
def isSet (maxRecords index : UInt64) (data : Array UInt8) : Result Bool :=
  if maxRecords ≤ index then .error (.indexOutOfRange index maxRecords)
  else
    match data[byteIndex index]? with
    | none => .error (.bitmapSizeMismatch (byteIndex index + 1) data.size)
    | some b => .ok (b.toNat.testBit (bitIndex index))

/-- Set the bit of a record that is not set yet. -/
def trySet (maxRecords index : UInt64) (data : Array UInt8) : Result (Array UInt8) :=
  match isSet maxRecords index data with
  | .error e => .error e
  | .ok true => .error (.alreadyClaimed index)
  | .ok false => .ok (data.modify (byteIndex index) (· ||| mask (bitIndex index)))

/-- The number of set bits in the bytes of the bitmap. -/
def countSet (maxRecords : UInt64) (data : Array UInt8) : Nat :=
  (data.take (sizeInBytes maxRecords)).foldl (fun count b => count + popCount b) 0

/-- One character per record, `1` for a set bit. -/
def bitChars (maxRecords : UInt64) (data : Array UInt8) : List Char :=
  (List.range maxRecords.toNat).map fun index =>
    match isSet maxRecords (UInt64.ofNat index) data with
    | .ok true => '1'
    | _ => '0'

/-- Characters in groups of eight. -/
def groupsOfEight : List Char → List String
  | a :: b :: c :: d :: e :: f :: g :: h :: rest =>
      String.ofList [a, b, c, d, e, f, g, h] :: groupsOfEight rest
  | [] => []
  | rest => [String.ofList rest]

/-- The bits in the order of the records, grouped by bytes. -/
def describeBits (maxRecords : UInt64) (data : Array UInt8) : String :=
  ",".intercalate (groupsOfEight (bitChars maxRecords data))

/-- The number of characters that no memory can hold: each takes four bytes until the text is put
together, and a block of memory is shorter than `2 ^ 63` bytes. -/
def describeLimit : Nat := 2 ^ 61

/-- The bits in the order of the records, unless there are too many to be laid out. -/
def describeBits? (maxRecords : UInt64) (data : Array UInt8) : Option String :=
  if describeLimit ≤ maxRecords.toNat then none else some (describeBits maxRecords data)

theorem trySet_size {maxRecords index : UInt64} {data data' : Array UInt8}
    (h : trySet maxRecords index data = .ok data') : data'.size = data.size := by
  unfold trySet at h
  split at h
  · simp at h
  · simp at h
  · simp only [Except.ok.injEq] at h
    rw [← h, Array.size_modify]

theorem mask_toNat {bit : Nat} (h : bit < 8) : (mask bit).toNat = 2 ^ bit := by
  have hall : ∀ i : Fin 8, (mask i.val).toNat = 2 ^ i.val := by decide
  exact hall ⟨bit, h⟩

end Surety.Bitmap
