import Mathlib.Order.Bounds.Basic
import Surety.Proofs.Bitmap.Size

/-!
# Marking records one after another

Records are marked in the same bytes call by call.  A call is refused for a record out of range, for a
byte that is not there, and for a bit that is on; otherwise it turns on one bit.  A refused call leaves
the bytes as they were, and no bit is ever turned off.

* `Reading` and `Marking` list what a call finds and what it does; `reading_iff` and `marking_iff` say
  that each call is one of the listed cases and no other.
* `Recorded` is what calls that succeeded have left behind; `Marking.recorded` is its step,
  `recorded_marks` the result for a run.
* `spacious_iff` says which bytes are enough for all calls, `isLeast_sizeInBytes` that a bitmap has no
  byte more than that.
* `marks_of_calls` puts them together, for bytes of any length and content.
-/

namespace Surety

namespace Bitmap

/-! ## One call -/

/-- Set the bit of a record in place: the answer, and the bytes that are left.  The byte is looked up to
test its bit and looked up again to be written. -/
def markInPlace (maxRecords index : UInt64) (data : Array UInt8) : Result Unit × Array UInt8 :=
  match isSet maxRecords index data with
  | .error e => (.error e, data)
  | .ok true => (.error (.alreadyClaimed index), data)
  | .ok false =>
      match data[byteIndex index]? with
      | none => (.error (.bitmapSizeMismatch (byteIndex index + 1) 0), data)
      | some b =>
          (.ok (), data.setIfInBounds (byteIndex index) (b ||| mask (bitIndex index)))

/-- What can be read of a record. -/
inductive Reading (maxRecords index : UInt64) (data : Array UInt8) : Result Bool → Prop
  | outOfRange (hrange : maxRecords ≤ index) :
      Reading maxRecords index data (.error (.indexOutOfRange index maxRecords))
  | noByte (hrange : index < maxRecords) (hbyte : data.size ≤ index.toNat / 8) :
      Reading maxRecords index data (.error (.bitmapSizeMismatch (index.toNat / 8 + 1) data.size))
  | read (hrange : index < maxRecords) (hbyte : index.toNat / 8 < data.size) :
      Reading maxRecords index data (.ok (data[index.toNat / 8].toNat.testBit (index.toNat % 8)))

/-- How a record can be marked: the answer, and the bytes afterwards. -/
inductive Marking (maxRecords index : UInt64) (data : Array UInt8) :
    Result Unit → Array UInt8 → Prop
  | outOfRange (hrange : maxRecords ≤ index) :
      Marking maxRecords index data (.error (.indexOutOfRange index maxRecords)) data
  | noByte (hrange : index < maxRecords) (hbyte : data.size ≤ index.toNat / 8) :
      Marking maxRecords index data
        (.error (.bitmapSizeMismatch (index.toNat / 8 + 1) data.size)) data
  | taken (hrange : index < maxRecords) (hbyte : index.toNat / 8 < data.size)
      (hon : bit data index.toNat = true) :
      Marking maxRecords index data (.error (.alreadyClaimed index)) data
  | marked {next : Array UInt8} (hrange : index < maxRecords) (hbyte : index.toNat / 8 < data.size)
      (hoff : bit data index.toNat = false) (hsize : next.size = data.size)
      (hbit : ∀ position, bit next position = (bit data position || decide (position = index.toNat))) :
      Marking maxRecords index data (.ok ()) next

section

variable {maxRecords index : UInt64} {data next after : Array UInt8}

theorem bit_of_lt {position : Nat} (hbyte : position / 8 < data.size) :
    bit data position = data[position / 8].toNat.testBit (position % 8) := by
  rw [bit, Array.getElem?_eq_getElem hbyte, Option.getD_some]

theorem reading_iff {answer : Result Bool} :
    isSet maxRecords index data = answer ↔ Reading maxRecords index data answer := by
  rw [isSet_eq, byteIndex]
  constructor
  · rintro rfl
    split
    · exact .outOfRange ‹_›
    · rename_i hrange
      split
      · exact .noByte (UInt64.not_le.1 hrange) ‹_›
      · rename_i hbyte
        rw [bit_of_lt (Nat.not_le.1 hbyte)]
        exact .read (UInt64.not_le.1 hrange) (Nat.not_le.1 hbyte)
  · intro h
    cases h with
    | outOfRange hrange => rw [if_pos hrange]
    | noByte hrange hbyte => rw [if_neg (UInt64.not_le.2 hrange), if_pos hbyte]
    | read hrange hbyte =>
        rw [if_neg (UInt64.not_le.2 hrange), if_neg (Nat.not_le.2 hbyte), bit_of_lt hbyte]

/-- Writing the byte that was tested is the change of that byte; it is there both times. -/
theorem markInPlace_eq (maxRecords index : UInt64) (data : Array UInt8) :
    markInPlace maxRecords index data =
      match trySet maxRecords index data with
      | .ok next => (.ok (), next)
      | .error e => (.error e, data) := by
  rw [markInPlace, trySet]
  cases hread : isSet maxRecords index data with
  | error e => rfl
  | ok on =>
      cases on with
      | true => rfl
      | false =>
          have hbyte := (isSet_eq_ok_iff.1 hread).2.1
          dsimp only
          rw [Array.getElem?_eq_getElem hbyte]
          rfl

theorem marking_iff {answer : Result Unit} :
    markInPlace maxRecords index data = (answer, after) ↔
      Marking maxRecords index data answer after := by
  rw [markInPlace_eq]
  constructor
  · intro h
    cases hset : trySet maxRecords index data with
    | ok next =>
        rw [hset] at h
        cases h
        obtain ⟨hfree, hsize, hbit⟩ := trySet_eq_ok_iff.1 hset
        obtain ⟨hrange, hbyte, hoff⟩ := isSet_eq_ok_iff.1 hfree
        exact .marked hrange hbyte hoff hsize hbit
    | error e =>
        rw [hset] at h
        cases h
        rcases trySet_eq_error_iff.1 hset with hread | ⟨hread, rfl⟩
        · cases reading_iff.1 hread with
          | outOfRange hrange => exact .outOfRange hrange
          | noByte hrange hbyte => exact .noByte hrange hbyte
        · obtain ⟨hrange, hbyte, hon⟩ := isSet_eq_ok_iff.1 hread
          exact .taken hrange hbyte hon
  · intro h
    cases h with
    | outOfRange hrange =>
        rw [trySet_eq_error_iff.2 (.inl (reading_iff.2 (.outOfRange hrange)))]
    | noByte hrange hbyte =>
        rw [trySet_eq_error_iff.2 (.inl (reading_iff.2 (.noByte hrange hbyte)))]
    | taken hrange hbyte hon =>
        rw [trySet_eq_error_iff.2 (.inr ⟨isSet_eq_ok_iff.2 ⟨hrange, hbyte, hon⟩, rfl⟩)]
    | marked hrange hbyte hoff hsize hbit =>
        rw [trySet_eq_ok_iff.2 ⟨isSet_eq_ok_iff.2 ⟨hrange, hbyte, hoff⟩, hsize, hbit⟩]

theorem Reading.byte_missing {required actual : Nat}
    (h : Reading maxRecords index data (.error (.bitmapSizeMismatch required actual))) :
    index < maxRecords ∧ data.size ≤ index.toNat / 8 := by
  cases h with
  | noByte hrange hbyte => exact ⟨hrange, hbyte⟩

theorem Marking.byte_missing {required actual : Nat}
    (h : Marking maxRecords index data (.error (.bitmapSizeMismatch required actual)) after) :
    index < maxRecords ∧ data.size ≤ index.toNat / 8 := by
  cases h with
  | noByte hrange hbyte => exact ⟨hrange, hbyte⟩

/-- A refused call leaves the bytes as they were. -/
theorem Marking.of_error {e : Error} (h : Marking maxRecords index data (.error e) after) :
    after = data := by
  cases h <;> rfl

end

/-! ## Calls one after another -/

/-- The bytes after calls for some records. -/
def afterMarks (maxRecords : UInt64) (data : Array UInt8) (indices : List UInt64) : Array UInt8 :=
  indices.foldl (fun data index => (markInPlace maxRecords index data).2) data

/-- The records whose calls succeed. -/
def marks (maxRecords : UInt64) (data : Array UInt8) : List UInt64 → List UInt64
  | [] => []
  | index :: rest =>
      match markInPlace maxRecords index data with
      | (.ok (), next) => index :: marks maxRecords next rest
      | (.error _, next) => marks maxRecords next rest

/-- What marking some records has done to bytes: the bits of these records are on in addition to those
that were, the records can be read as marked, and as many bits more are counted. -/
structure Recorded (maxRecords : UInt64) (data : Array UInt8) (marked : List UInt64)
    (after : Array UInt8) : Prop where
  size_eq : after.size = data.size
  bit_eq_true_iff : ∀ position, bit after position = true ↔
    bit data position = true ∨ ∃ index ∈ marked, position = index.toNat
  isSet_eq_true_iff : ∀ index, isSet maxRecords index after = .ok true ↔
    isSet maxRecords index data = .ok true ∨ index ∈ marked
  count_eq : countSet maxRecords after = countSet maxRecords data + marked.length

section

variable {maxRecords index : UInt64} {data next after : Array UInt8} {marked marked' : List UInt64}

theorem Recorded.refl (maxRecords : UInt64) (data : Array UInt8) :
    Recorded maxRecords data [] data where
  size_eq := rfl
  bit_eq_true_iff := by simp
  isSet_eq_true_iff := by simp
  count_eq := rfl

theorem Recorded.trans (h : Recorded maxRecords data marked next)
    (h' : Recorded maxRecords next marked' after) :
    Recorded maxRecords data (marked ++ marked') after where
  size_eq := h'.size_eq.trans h.size_eq
  bit_eq_true_iff position := by
    simp only [h'.bit_eq_true_iff, h.bit_eq_true_iff, List.mem_append, or_and_right, exists_or, or_assoc]
  isSet_eq_true_iff index := by
    rw [h'.isSet_eq_true_iff, h.isSet_eq_true_iff, List.mem_append, or_assoc]
  count_eq := by
    rw [h'.count_eq, h.count_eq, List.length_append, Nat.add_assoc]

/-- A call that succeeds records its own index. -/
theorem Marking.recorded (h : Marking maxRecords index data (.ok ()) next) :
    Recorded maxRecords data [index] next := by
  cases h with
  | marked hrange hbyte hoff hsize hbit =>
      refine ⟨hsize, ?_, ?_, ?_⟩
      · intro position
        simp [hbit]
      · intro other
        rw [isSet_eq_ok_iff, isSet_eq_ok_iff, hsize, hbit, List.mem_singleton, Bool.or_eq_true,
          decide_eq_true_eq, UInt64.toNat_inj]
        constructor
        · rintro ⟨hlt, hthere, hon | hsame⟩
          · exact .inl ⟨hlt, hthere, hon⟩
          · exact .inr hsame
        · rintro (⟨hlt, hthere, hon⟩ | rfl)
          · exact ⟨hlt, hthere, .inl hon⟩
          · exact ⟨hrange, hbyte, .inr rfl⟩
      · have hfree : isSet maxRecords index data = .ok false :=
          isSet_eq_ok_iff.2 ⟨hrange, hbyte, hoff⟩
        exact countSet_of_trySet (trySet_eq_ok_iff.2 ⟨hfree, hsize, hbit⟩)

/-- What a run of calls leaves is what its successful calls have recorded. -/
theorem recorded_marks (maxRecords : UInt64) (data : Array UInt8) (indices : List UInt64) :
    Recorded maxRecords data (marks maxRecords data indices) (afterMarks maxRecords data indices) := by
  induction indices generalizing data with
  | nil => exact .refl maxRecords data
  | cons index rest ih =>
      rw [afterMarks, List.foldl_cons, marks]
      cases hcall : markInPlace maxRecords index data with
      | mk answer next =>
          have hmarking := marking_iff.1 hcall
          cases answer with
          | ok => exact hmarking.recorded.trans (ih next)
          | error e =>
              obtain rfl := hmarking.of_error
              exact ih next

/-! ## Bytes that are enough -/

/-- No call, after whatever other calls, finds a byte missing. -/
def Spacious (maxRecords : UInt64) (data : Array UInt8) : Prop :=
  ∀ (indices : List UInt64) (index : UInt64) (required actual : Nat),
    isSet maxRecords index (afterMarks maxRecords data indices)
        ≠ .error (.bitmapSizeMismatch required actual) ∧
      (markInPlace maxRecords index (afterMarks maxRecords data indices)).1
        ≠ .error (.bitmapSizeMismatch required actual)

/-- Bytes are enough when they have a bit for every record. -/
theorem spacious_iff : Spacious maxRecords data ↔ maxRecords.toNat ≤ 8 * data.size := by
  constructor
  · intro h
    by_contra hshort
    -- the last record has no byte
    have hone : (1 : UInt64) ≤ maxRecords := by
      rw [UInt64.le_iff_toNat_le, UInt64.toNat_one]
      omega
    have hlast : (maxRecords - 1).toNat = maxRecords.toNat - 1 := UInt64.toNat_sub_of_le _ _ hone
    have hrange : maxRecords - 1 < maxRecords := by
      rw [UInt64.lt_iff_toNat_lt]
      omega
    have hbyte : data.size ≤ (maxRecords - 1).toNat / 8 := by omega
    exact (h [] (maxRecords - 1) _ _).1 (reading_iff.2 (.noByte hrange hbyte))
  · intro hlong indices index required actual
    have hsize := (recorded_marks maxRecords data indices).size_eq
    have hthere : ¬(index < maxRecords ∧
        (afterMarks maxRecords data indices).size ≤ index.toNat / 8) := by
      rw [UInt64.lt_iff_toNat_lt]
      omega
    exact ⟨fun hread => hthere (reading_iff.1 hread).byte_missing,
      fun hanswer => hthere (marking_iff.1 (Prod.ext hanswer rfl)).byte_missing⟩

theorem checkSize_eq_ok_iff :
    checkSize maxRecords data = .ok () ↔ sizeInBytes maxRecords ≤ data.size := by
  rw [checkSize]
  split
  · rename_i hshort
    simp [Nat.not_le.2 hshort]
  · rename_i hlong
    simp [Nat.not_lt.1 hlong]

/-- A bitmap has as few bytes as are enough, apart from the one byte that it always has. -/
theorem isLeast_sizeInBytes (maxRecords : UInt64) :
    IsLeast {size | 0 < size ∧ ∀ data : Array UInt8, data.size = size → Spacious maxRecords data}
      (sizeInBytes maxRecords) := by
  constructor
  · refine ⟨Nat.le_max_left _ _, ?_⟩
    intro data hsize
    rw [spacious_iff, hsize]
    exact le_sizeInBytes maxRecords
  · rintro size ⟨hpositive, henough⟩
    have hlong := spacious_iff.1 (henough (Array.replicate size 0) Array.size_replicate)
    rw [Array.size_replicate] at hlong
    rw [sizeInBytes]
    omega

/-- Calls on bytes of any length and content.  Each reading and each marking is one of the listed cases;
a run records exactly its successful calls; bytes that are accepted as large enough are so for all calls.
The count of 64 bits is the number of bits that are on, and the size of a bitmap, found in 64 bits, is the
least one that is enough. -/
theorem marks_of_calls (maxRecords : UInt64) (data : Array UInt8) :
    (∀ index answer, isSet maxRecords index data = answer ↔
      Reading maxRecords index data answer) ∧
    (∀ index answer after, markInPlace maxRecords index data = (answer, after) ↔
      Marking maxRecords index data answer after) ∧
    (∀ indices, Recorded maxRecords data (marks maxRecords data indices)
      (afterMarks maxRecords data indices)) ∧
    (checkSize maxRecords data = .ok () → Spacious maxRecords data) ∧
    (∀ count, checkedCount maxRecords data = some count ↔
      count.toNat = countSet maxRecords data) ∧
    countSet maxRecords data ≤ 8 * data.size ∧
    (∃ size, checkedSize maxRecords = some size ∧ size.toNat = sizeInBytes maxRecords) ∧
    sizeInBytes maxRecords = max 1 (maxRecords.toNat ⌈/⌉ 8) ∧
    IsLeast {size | 0 < size ∧ ∀ data : Array UInt8, data.size = size → Spacious maxRecords data}
      (sizeInBytes maxRecords) := by
  refine ⟨fun _ _ => reading_iff, fun _ _ _ => marking_iff, recorded_marks maxRecords data, ?_,
    fun _ => checkedCount_eq_some_iff, countSet_le maxRecords data, checkedSize_eq maxRecords,
    sizeInBytes_eq_ceilDiv maxRecords, isLeast_sizeInBytes maxRecords⟩
  intro haccepted
  have hrecords := le_sizeInBytes maxRecords
  have hsize := checkSize_eq_ok_iff.1 haccepted
  rw [spacious_iff]
  omega

/-- Of five calls on two bytes with bits on, one succeeds; the others are for a record out of range and for
bits that are on, one of them only since the first call. -/
theorem marks_of_partly_marked_bytes :
    let data : Array UInt8 := #[0x80, 0x06]
    let indices : List UInt64 := [8, 10, 7, 11, 8]
    checkSize 11 data = .ok () ∧ Spacious 11 data ∧
      marks 11 data indices = [8] ∧ afterMarks 11 data indices = #[0x80, 0x07] ∧
      countSet 11 #[0x80, 0x07] = countSet 11 data + 1 := by
  intro data indices
  have haccepted : checkSize 11 data = .ok () := by decide +kernel
  have hmarks : marks 11 data indices = [8] := by decide +kernel
  have hafter : afterMarks 11 data indices = #[0x80, 0x07] := by decide +kernel
  obtain ⟨-, -, hrecorded, hspacious, -⟩ := marks_of_calls 11 data
  have hcount := (hrecorded indices).count_eq
  rw [hmarks, hafter] at hcount
  exact ⟨haccepted, hspacious haccepted, hmarks, hafter, hcount⟩

end

end Bitmap

end Surety
