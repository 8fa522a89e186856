import Mathlib.Data.List.Basic
import Surety.Text.Hex

/-!
# Hexadecimal text and back

What is written has one form, what is read has many: marks may stand in front, and letters may be of
either case.

* `decodeMarked32_encode` says that the written form reads as the bytes that were written.
* `encode_of_decodeMarked32` says what the bytes of a text are written as: the text itself without its
  marks and in lower case.

Texts are read as UTF-8.  A character outside ASCII has a byte that is no digit, so a text that is read
has as many characters as bytes.
-/

namespace Surety.Hex

/-! ## Digits -/

/-- The lower-case digits. -/
def lowerDigits : List Char := "0123456789abcdef".toList

theorem digitChar_mem {n : Nat} (hn : n < 16) : digitChar n ∈ lowerDigits :=
  (by decide : ∀ n < 16, digitChar n ∈ lowerDigits) n hn

theorem utf8EncodeChar_digitChar {n : Nat} (hn : n < 16) :
    String.utf8EncodeChar (digitChar n) = [UInt8.ofNat (digitChar n).toNat] :=
  (by decide : ∀ n < 16,
    String.utf8EncodeChar (digitChar n) = [UInt8.ofNat (digitChar n).toNat]) n hn

theorem digitValue?_digitChar {n : Nat} (hn : n < 16) :
    digitValue? (UInt8.ofNat (digitChar n).toNat) = some n :=
  (by decide : ∀ n < 16, digitValue? (UInt8.ofNat (digitChar n).toNat) = some n) n hn

/-- The digit that is written for the value of a digit is the same one in lower case. -/
theorem digitChar_of_digitValue? {b : UInt8} {n : Nat} (h : digitValue? b = some n) :
    b.toNat < 128 ∧ n < 16 ∧ digitChar n = (Char.ofNat b.toNat).toLower := by
  -- there are 256 bytes, and all of them are tried
  have hall : ∀ k < 256, ∀ n ∈ digitValue? (UInt8.ofNat k),
      k < 128 ∧ n < 16 ∧ digitChar n = (Char.ofNat k).toLower := by
    decide +kernel
  exact hall b.toNat b.toNat_lt n (by simpa using h)

/-- The first byte of a character outside ASCII is 192 or more. -/
theorem leading_byte {c : Char} (hc : 127 < c.toNat) :
    ∃ b ∈ String.utf8EncodeChar c, 128 ≤ b.toNat := by
  have hascii : ¬c.val.toNat ≤ 127 := Nat.not_le.2 hc
  have hlead : ∀ low k, 192 ≤ low → low + k < 256 → 128 ≤ (UInt8.ofNat (k + low)).toNat := by
    intro low k hlow hfits
    rw [UInt8.toNat_ofNat_of_lt' (show k + low < 256 by omega)]
    omega
  unfold String.utf8EncodeChar
  simp only [if_neg hascii]
  split
  · exact ⟨_, List.mem_cons_self, hlead 192 _ (by omega) (by omega)⟩
  · split
    · exact ⟨_, List.mem_cons_self, hlead 224 _ (by omega) (by omega)⟩
    · exact ⟨_, List.mem_cons_self, hlead 240 _ (by omega) (by omega)⟩

/-- A character all of whose bytes are digits is one of ASCII. -/
theorem utf8EncodeChar_of_digits {c : Char}
    (h : ∀ b ∈ String.utf8EncodeChar c, ∃ n, digitValue? b = some n) :
    ∃ b : UInt8, String.utf8EncodeChar c = [b] ∧ Char.ofNat b.toNat = c := by
  rcases Nat.lt_or_ge 127 c.toNat with hwide | hascii
  · obtain ⟨b, hb, hlead⟩ := leading_byte hwide
    obtain ⟨n, hn⟩ := h b hb
    have hlow : b.toNat < 128 := (digitChar_of_digitValue? hn).1
    omega
  · refine ⟨UInt8.ofNat c.toNat, ?_, ?_⟩
    · exact if_pos hascii
    · rw [UInt8.toNat_ofNat_of_lt' (show c.toNat < 256 by omega), Char.ofNat_toNat]

/-- The characters of a text all of whose bytes are digits are its bytes. -/
theorem map_ofNat_utf8 {text : List Char}
    (h : ∀ b ∈ utf8 text, ∃ n, digitValue? b = some n) :
    (utf8 text).map (fun b => Char.ofNat b.toNat) = text := by
  induction text with
  | nil => rfl
  | cons c text ih =>
      rw [utf8, List.flatMap_cons] at h ⊢
      obtain ⟨b, hb, hc⟩ := utf8EncodeChar_of_digits fun x hx => h x (List.mem_append_left _ hx)
      have hrest := ih fun x hx => h x (List.mem_append_right _ hx)
      rw [hb, List.map_append, List.map_singleton, hc]
      exact congrArg (c :: ·) hrest

/-! ## Bytes -/

@[simp] theorem encodeChars_nil : encodeChars [] = [] := rfl

@[simp] theorem encodeChars_cons (x : UInt8) (b : Bytes) :
    encodeChars (x :: b)
      = digitChar (x.toNat / 16) :: digitChar (x.toNat % 16) :: encodeChars b := rfl

@[simp] theorem encodeChars_length (b : Bytes) : (encodeChars b).length = 2 * b.length := by
  induction b with
  | nil => rfl
  | cons x b ih => simp [ih]; omega

theorem halves_lt (x : UInt8) : x.toNat / 16 < 16 ∧ x.toNat % 16 < 16 := by
  have hx : x.toNat < 256 := x.toNat_lt
  omega

theorem mem_lowerDigits_of_mem {c : Char} {b : Bytes} (hc : c ∈ encodeChars b) :
    c ∈ lowerDigits := by
  obtain ⟨x, -, hx⟩ := List.mem_flatMap.1 hc
  rcases List.mem_pair.1 hx with rfl | rfl
  · exact digitChar_mem (halves_lt x).1
  · exact digitChar_mem (halves_lt x).2

/-- What is written for a byte string is read as that byte string. -/
theorem decodeFrom_encodeChars (position : Nat) (b : Bytes) :
    decodeFrom position (utf8 (encodeChars b)) = .ok b := by
  induction b generalizing position with
  | nil => rfl
  | cons x b ih =>
      obtain ⟨hhigh, hlow⟩ := halves_lt x
      have hx : UInt8.ofNat (16 * (x.toNat / 16) + x.toNat % 16) = x := by
        rw [Nat.div_add_mod, UInt8.ofNat_toNat]
      have hrest : decodeFrom (position + 2) (utf8 (encodeChars b)) = .ok b := ih (position + 2)
      rw [encodeChars_cons, utf8, List.flatMap_cons, List.flatMap_cons,
        utf8EncodeChar_digitChar hhigh, utf8EncodeChar_digitChar hlow]
      show decodeFrom position (_ :: _ :: utf8 (encodeChars b)) = _
      simp [decodeFrom, digitAt, digitValue?_digitChar hhigh, digitValue?_digitChar hlow, hrest, hx,
        Bind.bind, Except.bind, pure, Except.pure]

theorem digitAt_eq_ok_iff {position n : Nat} {b : UInt8} :
    digitAt position b = .ok n ↔ digitValue? b = some n := by
  unfold digitAt
  cases digitValue? b with
  | none => simp
  | some k => simp

/-- Every byte that is read is a digit, and the same digits are written again in lower case. -/
theorem encodeChars_of_decodeFrom {position : Nat} {bytes b : Bytes}
    (h : decodeFrom position bytes = .ok b) :
    (∀ x ∈ bytes, ∃ n, digitValue? x = some n) ∧
      encodeChars b = bytes.map fun x => (Char.ofNat x.toNat).toLower := by
  induction position, bytes using decodeFrom.induct generalizing b with
  | case1 position =>
      obtain rfl : [] = b := Except.ok.inj h
      simp
  | case2 position x => cases h
  | case3 position high low rest ih =>
      rw [decodeFrom] at h
      cases hhigh : digitAt position high with
      | error fault => rw [hhigh] at h; cases h
      | ok m =>
          cases hlow : digitAt (position + 1) low with
          | error fault => rw [hhigh, hlow] at h; cases h
          | ok n =>
              cases hrest : decodeFrom (position + 2) rest with
              | error fault => rw [hhigh, hlow, hrest] at h; cases h
              | ok tail =>
                  rw [hhigh, hlow, hrest] at h
                  obtain rfl : UInt8.ofNat (16 * m + n) :: tail = b := Except.ok.inj h
                  obtain ⟨hdigits, hchars⟩ := ih hrest
                  rw [digitAt_eq_ok_iff] at hhigh hlow
                  obtain ⟨-, hm, hmchar⟩ := digitChar_of_digitValue? hhigh
                  obtain ⟨-, hn, hnchar⟩ := digitChar_of_digitValue? hlow
                  have hbyte : (UInt8.ofNat (16 * m + n)).toNat = 16 * m + n :=
                    UInt8.toNat_ofNat_of_lt' (show 16 * m + n < 256 by omega)
                  have hm' : (16 * m + n) / 16 = m := by omega
                  have hn' : (16 * m + n) % 16 = n := by omega
                  constructor
                  · intro x hx
                    rcases List.mem_cons.1 hx with rfl | hx
                    · exact ⟨m, hhigh⟩
                    · rcases List.mem_cons.1 hx with rfl | hx
                      · exact ⟨n, hlow⟩
                      · exact hdigits x hx
                  · rw [encodeChars_cons, hbyte, hm', hn', hmchar, hnchar, hchars]
                    rfl

/-! ## Texts with marks -/

theorem dropMarks_of_not_mem {text : List Char} (h : 'x' ∉ text) : dropMarks text = text := by
  unfold dropMarks
  split
  · simp at h
  · rfl

theorem dropMarks_encodeChars (b : Bytes) : dropMarks (encodeChars b) = encodeChars b := by
  apply dropMarks_of_not_mem
  intro hx
  -- what is written may start with a zero, but no digit is the letter of a mark
  exact absurd (mem_lowerDigits_of_mem hx) (by decide)

theorem utf8_encodeChars_length (b : Bytes) : (utf8 (encodeChars b)).length = 2 * b.length := by
  induction b with
  | nil => rfl
  | cons x b ih =>
      obtain ⟨hhigh, hlow⟩ := halves_lt x
      rw [encodeChars_cons, utf8, List.flatMap_cons, List.flatMap_cons,
        utf8EncodeChar_digitChar hhigh, utf8EncodeChar_digitChar hlow]
      show (utf8 (encodeChars b)).length + 1 + 1 = _
      rw [ih, List.length_cons]
      omega

theorem decodeMarked32_eq_ok_iff {text : String} {d : Bytes32} :
    decodeMarked32 text = .ok d ↔ decodeExact 32 (dropMarks text.toList) = .ok d.toList := by
  rw [decodeMarked32]
  cases decodeExact 32 (dropMarks text.toList) with
  | error fault => exact ⟨nofun, nofun⟩
  | ok bytes =>
      rw [Except.ok.injEq, @eq_comm _ bytes, ← Bytes32.ofList?_eq_some_iff]
      cases hread : Bytes32.ofList? bytes with
      | none => simp [hread, Bind.bind, Except.bind, throw, throwThe, MonadExceptOf.throw]
      | some x => simp [hread, Bind.bind, Except.bind, pure, Except.pure]

theorem decodeFrom_of_decodeExact {width : Nat} {text : List Char} {b : Bytes}
    (h : decodeExact width text = .ok b) : decodeFrom 0 (utf8 text) = .ok b := by
  simp only [decodeExact] at h
  split at h
  · cases h
  · split at h
    · cases h
    · exact h

/-- The written form reads as the bytes that were written. -/
@[simp] theorem decodeMarked32_encode (d : Bytes32) : decodeMarked32 (encode d.toList) = .ok d := by
  have hlength : (utf8 (encodeChars d.toList)).length = 64 := by
    rw [utf8_encodeChars_length, d.length_eq]
  rw [decodeMarked32_eq_ok_iff, encode, String.toList_ofList, dropMarks_encodeChars]
  simp [decodeExact, hlength, decodeFrom_encodeChars]

/-- A text that is read has one written form: itself without its marks and in lower case. -/
theorem encode_of_decodeMarked32 {text : String} {d : Bytes32} (h : decodeMarked32 text = .ok d) :
    (encode d.toList).toList = (dropMarks text.toList).map Char.toLower := by
  have hread := decodeFrom_of_decodeExact (decodeMarked32_eq_ok_iff.1 h)
  obtain ⟨hdigits, hchars⟩ := encodeChars_of_decodeFrom hread
  rw [encode, String.toList_ofList, hchars]
  conv => rhs; rw [← map_ofNat_utf8 hdigits]
  rw [List.map_map]
  rfl

end Surety.Hex
