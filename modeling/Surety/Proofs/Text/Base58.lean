import Mathlib.Data.List.TakeWhile
import Mathlib.Data.Nat.Digits.Lemmas
import Surety.Text.Base58

/-!
# Base-58 text and back

A byte string and its text are two numerals of one number, with one leading zero of the text for every
leading zero of the bytes.  Both readings drop what they do not need of a fixed width, so they are
compared through the shortest numeral of a number, which is unique.

* `Positional.rebase_rebase` says that changing the base of a numeral and changing it back gives the
  numeral that was there, leading zeros included.
* `Base58.decode?_encode` and `Base58.encode_of_decode?` are the two directions for byte strings of any
  length.
* `Address.ofText_eq_ok_iff` says that an address has exactly one text.  The bound on the length of a
  text is not in the way: no text of 32 bytes has more than 44 digits.
-/

namespace Surety

namespace Positional

/-! ## Numerals without leading zeros -/

theorem value_eq_ofDigits (base : Nat) (ds : List Nat) : value base ds = Nat.ofDigits base ds := by
  induction ds with
  | nil => rfl
  | cons d ds ih => rw [value, Nat.ofDigits_cons, ih]

/-- Digits of a fixed width are the shortest ones with zeros behind them. -/
theorem digits_eq_append_zeros {base width n : Nat} (hbase : 1 < base) (hn : n < base ^ width) :
    digits base width n
      = Nat.digits base n ++ List.replicate (width - (Nat.digits base n).length) 0 := by
  induction width generalizing n with
  | zero =>
      obtain rfl : n = 0 := by simpa using hn
      simp [digits]
  | succ width ih =>
      have hdiv : n / base < base ^ width := by
        apply Nat.div_lt_of_lt_mul
        rwa [Nat.pow_succ, Nat.mul_comm] at hn
      rw [digits, ih hdiv]
      rcases Nat.eq_zero_or_pos n with rfl | hpos
      · simp [List.replicate_succ]
      · simp [Nat.digits_def' hbase hpos]

/-- A list of digits, most significant first, is its leading zeros and the rest. -/
theorem zeros_append_dropWhile (ds : List Nat) :
    List.replicate (ds.takeWhile (· == 0)).length 0 ++ ds.dropWhile (· == 0) = ds := by
  have hzeros : ds.takeWhile (· == 0) = List.replicate (ds.takeWhile (· == 0)).length 0 := by
    apply List.eq_replicate_of_mem
    intro d hd
    simpa using List.mem_takeWhile_imp hd
  rw [← hzeros, List.takeWhile_append_dropWhile]

theorem head?_dropWhile_ne_zero (ds : List Nat) : (ds.dropWhile (· == 0)).head? ≠ some 0 := by
  intro h
  have hnil : ds.dropWhile (· == 0) ≠ [] := by
    intro hnil
    simp [hnil] at h
  have hhead := List.head_dropWhile_not (· == 0) hnil
  rw [List.head?_eq_some_head hnil, Option.some.injEq] at h
  simp [h] at hhead

theorem head?_reverse_digits_ne_zero (base n : Nat) :
    (Nat.digits base n).reverse.head? ≠ some 0 := by
  rcases Nat.eq_zero_or_pos n with rfl | hpos
  · simp
  · have hnil : Nat.digits base n ≠ [] := Nat.digits_ne_nil_iff_ne_zero.2 (by omega)
    rw [List.head?_reverse, List.getLast?_eq_some_getLast hnil, ne_eq, Option.some.injEq]
    exact Nat.getLast_digit_ne_zero base (by omega)

section

variable {ds : List Nat} {k : Nat}

theorem takeWhile_zeros_append (hds : ds.head? ≠ some 0) :
    (List.replicate k 0 ++ ds).takeWhile (· == 0) = List.replicate k 0 := by
  rw [List.takeWhile_append_of_pos (by simp)]
  cases ds with
  | nil => simp
  | cons d ds => simpa [List.takeWhile_cons] using hds

theorem dropWhile_zeros_append (hds : ds.head? ≠ some 0) :
    (List.replicate k 0 ++ ds).dropWhile (· == 0) = ds := by
  rw [List.dropWhile_append_of_pos (by simp)]
  cases ds with
  | nil => rfl
  | cons d ds => exact List.dropWhile_cons_of_neg (by simpa using hds)

/-- Leading zeros do not count. -/
theorem value_reverse_dropWhile (base : Nat) (ds : List Nat) :
    value base (ds.dropWhile (· == 0)).reverse = value base ds.reverse := by
  conv => rhs; rw [← zeros_append_dropWhile ds]
  rw [List.reverse_append, List.reverse_replicate, value_eq_ofDigits, value_eq_ofDigits,
    Nat.ofDigits_append_replicate_zero]

/-- A numeral without leading zeros is the shortest one of its number. -/
theorem reverse_digits_value {base : Nat} (hbase : 1 < base) (hdigits : ∀ d ∈ ds, d < base)
    (hds : ds.head? ≠ some 0) : (Nat.digits base (value base ds.reverse)).reverse = ds := by
  rw [value_eq_ofDigits, Nat.digits_ofDigits base hbase, List.reverse_reverse]
  · intro d hd
    exact hdigits d (List.mem_reverse.1 hd)
  · intro hnil hlast
    apply hds
    rw [← List.getLast?_reverse, List.getLast?_eq_some_getLast hnil, hlast]

end

/-! ## Changing the base -/

/-- The numeral of the same number in another base, both most significant digit first, with as many
leading zeros; the number has to fit the width. -/
def rebase (source target width : Nat) (ds : List Nat) : List Nat :=
  List.replicate (ds.takeWhile (· == 0)).length 0
    ++ (digits target width (value source ds.reverse)).reverse.dropWhile (· == 0)

theorem mem_rebase_lt {source target width d : Nat} {ds : List Nat} (htarget : 0 < target)
    (hd : d ∈ rebase source target width ds) : d < target := by
  rcases List.mem_append.1 hd with hzero | hdigit
  · rw [List.eq_of_mem_replicate hzero]
    exact htarget
  · exact digits_lt htarget (List.mem_reverse.1 ((List.dropWhile_sublist _).mem hdigit))

section

variable {source target width : Nat} {ds : List Nat} (htarget : 1 < target)
  (hdigits : ∀ d ∈ ds, d < source) (hfits : value source ds.reverse < target ^ width)

include htarget hfits

/-- Apart from leading zeros the new numeral is the shortest one. -/
theorem rebase_eq :
    rebase source target width ds
      = List.replicate (ds.takeWhile (· == 0)).length 0
        ++ (Nat.digits target (value source ds.reverse)).reverse := by
  rw [rebase, digits_eq_append_zeros htarget hfits, List.reverse_append, List.reverse_replicate,
    dropWhile_zeros_append (head?_reverse_digits_ne_zero _ _)]

/-- The number stays the same. -/
theorem value_rebase :
    value target (rebase source target width ds).reverse = value source ds.reverse := by
  rw [rebase_eq htarget hfits, List.reverse_append, List.reverse_reverse, List.reverse_replicate,
    value_eq_ofDigits target, Nat.ofDigits_append_replicate_zero, Nat.ofDigits_digits]

include hdigits

/-- Changing the base and changing it back gives the numeral that was there. -/
theorem rebase_rebase {back : Nat} (hsource : 1 < source)
    (hback : value source ds.reverse < source ^ back) :
    rebase target source back (rebase source target width ds) = ds := by
  have hvalue := value_rebase htarget hfits
  -- the zeros in front are the same, and behind them a number has one shortest numeral
  have hzeros : (rebase source target width ds).takeWhile (· == 0)
      = List.replicate (ds.takeWhile (· == 0)).length 0 := by
    rw [rebase_eq htarget hfits]
    exact takeWhile_zeros_append (head?_reverse_digits_ne_zero _ _)
  have hrest : (Nat.digits source (value source ds.reverse)).reverse = ds.dropWhile (· == 0) := by
    rw [← value_reverse_dropWhile]
    apply reverse_digits_value hsource _ (head?_dropWhile_ne_zero ds)
    intro d hd
    exact hdigits d ((List.dropWhile_sublist _).mem hd)
  rw [rebase_eq hsource (by rwa [hvalue]), hvalue, hzeros, hrest, List.length_replicate,
    zeros_append_dropWhile]

/-- A numeral gets at most `longest` digits when that many are enough for all numerals with as many
leading zeros. -/
theorem length_rebase_le {longest : Nat} (hlonger : ds.length ≤ longest)
    (henough : ∀ k ≤ ds.length, source ^ (ds.length - k) ≤ target ^ (longest - k)) :
    (rebase source target width ds).length ≤ longest := by
  let zeros := (ds.takeWhile (· == 0)).length
  -- every zero in front takes one digit, and leaves less for the digits behind it
  have hsplit : zeros + (ds.dropWhile (· == 0)).length = ds.length := by
    rw [← List.length_append, List.takeWhile_append_dropWhile]
  have hvalue : value source ds.reverse < target ^ (longest - zeros) := by
    calc value source ds.reverse
        = value source (ds.dropWhile (· == 0)).reverse := (value_reverse_dropWhile source ds).symm
      _ < source ^ (ds.dropWhile (· == 0)).reverse.length := by
          apply value_lt
          intro d hd
          exact hdigits d ((List.dropWhile_sublist _).mem (List.mem_reverse.1 hd))
      _ = source ^ (ds.length - zeros) := by
          rw [List.length_reverse, ← hsplit, Nat.add_sub_cancel_left]
      _ ≤ target ^ (longest - zeros) := henough zeros (by omega)
  have hdigits : (Nat.digits target (value source ds.reverse)).length ≤ longest - zeros :=
    (Nat.digits_length_le_iff htarget _).2 hvalue
  rw [rebase_eq htarget hfits, List.length_append, List.length_replicate, List.length_reverse]
  omega

end

end Positional

namespace Base58

/-! ## Digits -/

theorem digitValue?_digitChar {d : Nat} (hd : d < 58) : digitValue? (digitChar d) = some d :=
  (by decide : ∀ d < 58, digitValue? (digitChar d) = some d) d hd

theorem digitChar_of_digitValue? {c : Char} {d : Nat} (h : digitValue? c = some d) :
    d < 58 ∧ digitChar d = c := by
  obtain ⟨hlt, hc, -⟩ := List.idxOf?_eq_some_iff.1 h
  exact ⟨hlt, by simp [digitChar, List.getD, hlt, hc]⟩

theorem utf8_digitChar_length {d : Nat} (hd : d < 58) :
    (String.utf8EncodeChar (digitChar d)).length = 1 :=
  (by decide : ∀ d < 58, (String.utf8EncodeChar (digitChar d)).length = 1) d hd

/-- Reading the characters of a numeral gives its digits. -/
theorem mapM_digitValue?_map {ds : List Nat} (hds : ∀ d ∈ ds, d < 58) :
    (ds.map digitChar).mapM digitValue? = some ds := by
  induction ds with
  | nil => rfl
  | cons d ds ih =>
      have hrest : (ds.map digitChar).mapM digitValue? = some ds :=
        ih fun e he => hds e (by simp [he])
      simp [digitValue?_digitChar (hds d (by simp)), hrest]

/-- What reads as digits are the characters of these digits. -/
theorem map_digitChar_of_mapM {text : List Char} {ds : List Nat}
    (h : text.mapM digitValue? = some ds) : (∀ d ∈ ds, d < 58) ∧ ds.map digitChar = text := by
  induction text generalizing ds with
  | nil =>
      obtain rfl : [] = ds := by simpa using h
      simp
  | cons c text ih =>
      cases hc : digitValue? c with
      | none => simp [hc] at h
      | some d =>
          cases hrest : text.mapM digitValue? with
          | none => simp [hc, hrest] at h
          | some rest =>
              obtain rfl : d :: rest = ds := by simpa [hc, hrest] using h
              obtain ⟨hlt, hchar⟩ := digitChar_of_digitValue? hc
              obtain ⟨hlts, hchars⟩ := ih hrest
              simpa [hchar, hchars, hlt] using hlts

/-! ## Byte strings -/

/-- Reading bytes as numbers does not hide a zero. -/
theorem beq_zero_toNat : ((· == 0) ∘ UInt8.toNat) = ((· == 0) : UInt8 → Bool) := by
  funext b
  simp [← UInt8.toNat_inj]

theorem toNat_lt_of_mem {b : Bytes} {d : Nat} (hd : d ∈ b.map UInt8.toNat) : d < 256 := by
  obtain ⟨x, -, rfl⟩ := List.mem_map.1 hd
  exact x.toNat_lt

theorem encodeDigits_eq (b : Bytes) :
    encodeDigits b = Positional.rebase 256 58 (2 * b.length) (b.map UInt8.toNat) := by
  rw [encodeDigits, Positional.rebase, List.takeWhile_map, beq_zero_toNat, List.length_map,
    Bytes.toNatBE, Bytes.toNatLE, List.map_reverse]

theorem map_toNat_decodeDigits (ds : List Nat) :
    (decodeDigits ds).map UInt8.toNat = Positional.rebase 58 256 ds.length ds := by
  rw [decodeDigits, Positional.rebase, ← Bytes.map_toNat_ofNatLE, ← List.map_reverse,
    List.dropWhile_map, beq_zero_toNat, List.map_append, List.map_replicate]
  rfl

/-- Two digits for every byte are enough. -/
theorem value_lt_digits (b : Bytes) :
    Positional.value 256 (b.map UInt8.toNat).reverse < 58 ^ (2 * b.length) := by
  have hvalue : Positional.value 256 (b.map UInt8.toNat).reverse < 256 ^ b.length := by
    simpa [List.map_reverse, Bytes.toNatLE] using Bytes.toNatLE_lt b.reverse
  calc Positional.value 256 (b.map UInt8.toNat).reverse
      < 256 ^ b.length := hvalue
    _ ≤ (58 ^ 2) ^ b.length := Nat.pow_le_pow_left (by decide) _
    _ = 58 ^ (2 * b.length) := (Nat.pow_mul 58 2 b.length).symm

/-- One byte for every digit is enough. -/
theorem value_lt_bytes {ds : List Nat} (hds : ∀ d ∈ ds, d < 58) :
    Positional.value 58 ds.reverse < 58 ^ ds.length ∧
      Positional.value 58 ds.reverse < 256 ^ ds.length := by
  have hvalue : Positional.value 58 ds.reverse < 58 ^ ds.length := by
    rw [← List.length_reverse]
    exact Positional.value_lt fun d hd => hds d (List.mem_reverse.1 hd)
  exact ⟨hvalue, Nat.lt_of_lt_of_le hvalue (Nat.pow_le_pow_left (by decide) _)⟩

theorem mem_encodeDigits_lt {b : Bytes} {d : Nat} (hd : d ∈ encodeDigits b) : d < 58 := by
  rw [encodeDigits_eq] at hd
  exact Positional.mem_rebase_lt (by decide) hd

theorem decodeDigits_encodeDigits (b : Bytes) : decodeDigits (encodeDigits b) = b := by
  -- compared as numbers, so that both are numerals
  apply List.map_injective_iff.2 fun x y => UInt8.toNat_inj.1
  have hfits := value_lt_digits b
  have hvalue := Positional.value_rebase (by decide) hfits
  have hback := (value_lt_bytes fun d hd => @mem_encodeDigits_lt b d hd).2
  rw [encodeDigits_eq, hvalue] at hback
  rw [map_toNat_decodeDigits, encodeDigits_eq]
  exact Positional.rebase_rebase (by decide) (fun d => toNat_lt_of_mem) hfits (by decide) hback

theorem encodeDigits_decodeDigits {ds : List Nat} (hds : ∀ d ∈ ds, d < 58) :
    encodeDigits (decodeDigits ds) = ds := by
  have hfits := (value_lt_bytes hds).2
  have hvalue := Positional.value_rebase (by decide) hfits
  have hback := value_lt_digits (decodeDigits ds)
  rw [map_toNat_decodeDigits, hvalue] at hback
  rw [encodeDigits_eq, map_toNat_decodeDigits]
  exact Positional.rebase_rebase (by decide) hds hfits (by decide) hback

/-- The text of a byte string reads as that byte string. -/
theorem decode?_encode (b : Bytes) : decode? (encode b).toList = some b := by
  rw [decode?, encode, String.toList_ofList, mapM_digitValue?_map fun d => mem_encodeDigits_lt,
    Option.map_some, decodeDigits_encodeDigits]

/-- A text that reads as a byte string is the text of that byte string. -/
theorem encode_of_decode? {text : List Char} {b : Bytes} (h : decode? text = some b) :
    (encode b).toList = text := by
  obtain ⟨ds, hds, rfl⟩ := Option.map_eq_some_iff.1 h
  obtain ⟨hlt, hchars⟩ := map_digitChar_of_mapM hds
  rw [encode, String.toList_ofList, encodeDigits_decodeDigits hlt, hchars]

/-- A text is as long in bytes as in characters. -/
theorem utf8_encode_length (b : Bytes) :
    (Hex.utf8 (encode b).toList).length = (encodeDigits b).length := by
  rw [encode, String.toList_ofList, Hex.utf8, List.length_flatMap, List.map_map]
  have hone : (encodeDigits b).map ((fun c => (String.utf8EncodeChar c).length) ∘ digitChar)
      = (encodeDigits b).map fun _ => 1 := by
    apply List.map_congr_left
    intro d hd
    exact utf8_digitChar_length (mem_encodeDigits_lt hd)
  rw [hone]
  simp

end Base58

namespace Address

/-! ## Addresses -/

/-- No address needs more digits than the longest text has. -/
theorem length_encodeDigits_le (a : Address) :
    (Base58.encodeDigits a.toList).length ≤ maxTextLength := by
  rw [Base58.encodeDigits_eq]
  apply Positional.length_rebase_le (by decide) (fun d => Base58.toNat_lt_of_mem)
    (Base58.value_lt_digits a.toList)
  · simp [maxTextLength]
  · rw [List.length_map, a.length_eq]
    decide

/-- An address is read from its text, and from no other. -/
theorem ofText_eq_ok_iff {text : String} {a : Address} : ofText text = .ok a ↔ a.toText = text := by
  constructor
  · intro h
    unfold ofText at h
    split at h
    · cases h
    · cases hdecode : Base58.decode? text.toList with
      | none => simp [hdecode] at h
      | some bytes =>
          cases hbytes : Bytes32.ofList? bytes with
          | none => simp [hdecode, hbytes] at h
          | some found =>
              obtain rfl : found = a := by simpa [hdecode, hbytes] using h
              obtain rfl := Bytes32.ofList?_eq_some_iff.1 hbytes
              exact String.toList_injective (Base58.encode_of_decode? hdecode)
  · rintro rfl
    have hshort : ¬maxTextLength < (Hex.utf8 a.toText.toList).length := by
      rw [toText, Base58.utf8_encode_length, Nat.not_lt]
      exact length_encodeDigits_le a
    rw [ofText, if_neg hshort, toText, Base58.decode?_encode]
    simp

@[simp] theorem ofText_toText (a : Address) : ofText a.toText = .ok a := ofText_eq_ok_iff.2 rfl

end Address

end Surety
