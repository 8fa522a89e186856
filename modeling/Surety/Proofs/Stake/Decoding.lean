import Mathlib.Logic.Function.Basic
import Surety.Stake.Encoding

/-!
# Which bytes are a stake account

The bytes of a stake account are the encoding of its content with anything behind it.

* `Reader.Exact` is what every reader of a field does: it reads what the encoding of the field writes, at a
  fixed width, and finds something in all data of that width.  It is proved for the primitive fields
  and passed on by `Reader.pair` and `Reader.map`, from which every record is put together.
* `State.decode_encode_append`, `State.exists_encode_eq_take` and `State.decode_of_malformed` do the same
  for the four variants of a stake account.
* `classify_of_encoding` says which data has a view and that the view is that of the encoded content.
-/

namespace Surety.Stake

/-! ## Readers of fixed width -/

namespace Reader

variable {α β : Type}

/-- The reader reads the encodings of all values, which are the strings of one width. -/
structure Exact (reader : Reader α) (encode : α → Bytes) (width : Nat) : Prop where
  encode_length : ∀ x, (encode x).length = width
  /-- an encoding is read back, whatever follows it -/
  encode_append : ∀ x rest, reader (encode x ++ rest) = some (x, rest)
  /-- all data that is long enough starts with an encoding -/
  exists_of_le : ∀ data : Bytes, width ≤ data.length → ∃ x rest, data = encode x ++ rest
  /-- shorter data is refused -/
  none_of_lt : ∀ data : Bytes, data.length < width → reader data = none

/-- Read two values, one behind the other. -/
def pair (first : Reader α) (second : Reader β) : Reader (α × β) := fun data => do
  let (x, data) ← first data
  let (y, data) ← second data
  return ((x, y), data)

/-- Read a value and give it another form. -/
def map (f : α → β) (reader : Reader α) : Reader β := fun data => do
  let (x, data) ← reader data
  return (f x, data)

section

variable {first : Reader α} {second : Reader β} {encode : α → Bytes} {encode' : β → Bytes}
  {width width' : Nat}

theorem Exact.pair (hfirst : Exact first encode width) (hsecond : Exact second encode' width') :
    Exact (pair first second) (fun p => encode p.1 ++ encode' p.2) (width + width') where
  encode_length p := by
    rw [List.length_append, hfirst.encode_length, hsecond.encode_length]
  encode_append p rest := by
    simp [Reader.pair, hfirst.encode_append, hsecond.encode_append]
  exists_of_le data hle := by
    obtain ⟨x, rest, rfl⟩ := hfirst.exists_of_le data (by omega)
    rw [List.length_append, hfirst.encode_length] at hle
    obtain ⟨y, rest, rfl⟩ := hsecond.exists_of_le rest (by omega)
    exact ⟨(x, y), rest, (List.append_assoc _ _ _).symm⟩
  none_of_lt data hlt := by
    by_cases hle : width ≤ data.length
    · obtain ⟨x, rest, rfl⟩ := hfirst.exists_of_le data hle
      rw [List.length_append, hfirst.encode_length] at hlt
      simp [Reader.pair, hfirst.encode_append, hsecond.none_of_lt rest (by omega)]
    · simp [Reader.pair, hfirst.none_of_lt data (by omega)]

theorem Exact.map {f : α → β} (hfirst : Exact first encode width) (hsurjective : f.Surjective)
    (hencode : ∀ x, encode' (f x) = encode x) : Exact (map f first) encode' width where
  encode_length := hsurjective.forall.2 fun x => by rw [hencode, hfirst.encode_length]
  encode_append := hsurjective.forall.2 fun x rest => by
    simp [Reader.map, hencode, hfirst.encode_append]
  exists_of_le data hle := by
    obtain ⟨x, rest, rfl⟩ := hfirst.exists_of_le data hle
    exact ⟨f x, rest, by rw [hencode]⟩
  none_of_lt data hlt := by
    simp [Reader.map, hfirst.none_of_lt data hlt]

end

/-! ## The fields -/

theorem take_append {bytes : Bytes} {width : Nat} (h : bytes.length = width) (rest : Bytes) :
    take width (bytes ++ rest) = some (bytes, rest) := by
  rw [take, if_neg (by rw [List.length_append]; omega), List.take_left' h, List.drop_left' h]

theorem take_of_lt {data : Bytes} {width : Nat} (h : data.length < width) : take width data = none :=
  if_pos h

/-- Data that is long enough, cut at a width. -/
theorem exists_append_of_le {data : Bytes} {width : Nat} (h : width ≤ data.length) :
    ∃ bytes rest : Bytes, bytes.length = width ∧ data = bytes ++ rest :=
  ⟨data.take width, data.drop width, List.length_take_of_le h, (List.take_append_drop _ _).symm⟩

theorem exact_byte : Exact byte (fun b => [b]) 1 where
  encode_length _ := rfl
  encode_append _ _ := rfl
  exists_of_le data hle := by
    obtain ⟨b, rest, rfl⟩ := List.exists_cons_of_length_pos hle
    exact ⟨b, rest, rfl⟩
  none_of_lt data hlt := by
    rw [List.length_eq_zero_iff.1 (Nat.lt_one_iff.1 hlt), byte]

theorem exact_word : Exact word Bytes.ofUInt64 8 where
  encode_length := Bytes.ofUInt64_length
  encode_append n rest := by
    simp [word, take_append (Bytes.ofUInt64_length n)]
  exists_of_le data hle := by
    obtain ⟨bytes, rest, hbytes, rfl⟩ := exists_append_of_le hle
    exact ⟨Bytes.toUInt64 bytes, rest, by rw [Bytes.ofUInt64_toUInt64 hbytes]⟩
  none_of_lt data hlt := by
    simp [word, take_of_lt hlt]

theorem exact_address : Exact address Bytes32.toList 32 where
  encode_length := Bytes32.length_eq
  encode_append a rest := by
    simp [address, take_append a.length_eq]
  exists_of_le data hle := by
    obtain ⟨bytes, rest, hbytes, rfl⟩ := exists_append_of_le hle
    exact ⟨⟨bytes, hbytes⟩, rest, rfl⟩
  none_of_lt data hlt := by
    simp [address, take_of_lt hlt]

theorem exact_lockup : Exact lockup Lockup.encode 48 := by
  have hread : lockup = map (fun p => ⟨p.1.toInt64, p.2.1, p.2.2⟩) (pair word (pair word address)) := by
    funext data
    simp [lockup, map, pair, Option.bind_assoc]
  rw [hread]
  exact (exact_word.pair (exact_word.pair exact_address)).map
    (fun l => ⟨(l.unixTimestamp.toUInt64, l.epoch, l.custodian), by simp⟩)
    (fun p => by simp [Lockup.encode])

theorem exact_info : Exact info Meta.encode 120 := by
  have hread : info = map (fun p => ⟨p.1, p.2.1, p.2.2.1, p.2.2.2⟩)
      (pair word (pair address (pair address lockup))) := by
    funext data
    simp [info, map, pair, Option.bind_assoc]
  rw [hread]
  exact (exact_word.pair (exact_address.pair (exact_address.pair exact_lockup))).map
    (fun i => ⟨(i.rentExemptReserve, i.staker, i.withdrawer, i.lockup), rfl⟩) (fun _ => rfl)

theorem exact_delegation : Exact delegation Delegation.encode 64 := by
  have hread : delegation = map (fun p => ⟨p.1, p.2.1, p.2.2.1, p.2.2.2.1, p.2.2.2.2⟩)
      (pair address (pair word (pair word (pair word word)))) := by
    funext data
    simp [delegation, map, pair, Option.bind_assoc]
  rw [hread]
  exact (exact_address.pair (exact_word.pair (exact_word.pair (exact_word.pair exact_word)))).map
    (fun d => ⟨(d.voter, d.stake, d.activationEpoch, d.deactivationEpoch, d.warmupRateBits), rfl⟩)
    (fun _ => rfl)

/-- The fields of a delegated account, which are not all of its variants. -/
theorem exact_delegated_fields :
    Exact (pair info (pair delegation (pair word byte)))
      (fun p => p.1.encode ++ (p.2.1.encode ++ (Bytes.ofUInt64 p.2.2.1 ++ [p.2.2.2]))) 193 :=
  exact_info.pair (exact_delegation.pair (exact_word.pair exact_byte))

theorem delegated_eq : delegated = map (fun p => .delegated p.1 p.2.1 p.2.2.1 p.2.2.2)
    (pair info (pair delegation (pair word byte))) := by
  funext data
  simp [delegated, map, pair, Option.bind_assoc]

end Reader

/-! ## The four variants -/

namespace State

/-- The number in front of the fields of an account. -/
def variant : State → Nat
  | .uninitialized => 0
  | .initialized _ => 1
  | .delegated _ _ _ _ => 2
  | .rewardsPool => 3

/-- The number that data has in place of the variant. -/
def variantOf (data : Bytes) : Nat := Bytes.toNatLE (data.take 4)

/-- How much of the data is looked at for a variant. -/
def encodedLength : (variant : Nat) → Nat
  | 1 => 124
  | 2 => 197
  | _ => 4

theorem encode_length (state : State) : state.encode.length = encodedLength state.variant := by
  cases state with
  | uninitialized => rfl
  | initialized info =>
      rw [encode, List.length_append, Bytes.ofNatLE_length, Reader.exact_info.encode_length]
      rfl
  | delegated info delegation credits flags =>
      rw [encode, List.length_append, Bytes.ofNatLE_length,
        Reader.exact_delegated_fields.encode_length (info, delegation, credits, flags)]
      rfl
  | rewardsPool => rfl

/-- Read what stands behind the number of a variant. -/
def decodeFields (variant : Nat) (data : Bytes) : Except StakeDataFault State :=
  match variant with
  | 0 => .ok .uninitialized
  | 1 => (orTruncated (Reader.info data)).map .initialized
  | 2 => orTruncated (Reader.delegated data)
  | 3 => .ok .rewardsPool
  | index => .error (.unknownVariant index)

theorem decode_append {variant : Nat} (hvariant : variant < 256 ^ 4) (data : Bytes) :
    decode (Bytes.ofNatLE 4 variant ++ data) = decodeFields variant data := by
  rw [decode, Reader.take_append (Bytes.ofNatLE_length 4 variant)]
  simp only [Bytes.toNatLE_ofNatLE hvariant]
  rfl

/-- The encoding of an account is read back, whatever follows it. -/
theorem decode_encode_append (state : State) (padding : Bytes) :
    decode (state.encode ++ padding) = .ok state := by
  cases state with
  | uninitialized => exact decode_append (by decide) padding
  | initialized info =>
      rw [encode, List.append_assoc, decode_append (by decide)]
      simp [decodeFields, Reader.exact_info.encode_append, orTruncated, Except.map]
  | delegated info delegation credits flags =>
      have hread := Reader.exact_delegated_fields.encode_append
        (info, delegation, credits, flags) padding
      dsimp only at hread
      rw [encode, List.append_assoc, decode_append (by decide), decodeFields, Reader.delegated_eq,
        Reader.map, hread]
      rfl
  | rewardsPool => exact decode_append (by decide) padding

/-- Data with the bytes of a variant is that variant and what follows. -/
theorem exists_variant {data : Bytes} (h : 4 ≤ data.length) :
    variantOf data < 256 ^ 4 ∧ ∃ rest, data = Bytes.ofNatLE 4 (variantOf data) ++ rest := by
  obtain ⟨bytes, rest, hbytes, rfl⟩ := Reader.exists_append_of_le h
  have hbound := Bytes.toNatLE_lt bytes
  have hencode := Bytes.ofNatLE_toNatLE bytes
  rw [hbytes] at hbound hencode
  rw [variantOf, List.take_left' hbytes]
  exact ⟨hbound, rest, by rw [hencode]⟩

/-- Data in which all fields of its variant are present starts with the encoding of an account. -/
theorem exists_encode_append (data : Bytes) (hfour : 4 ≤ data.length) (hvariant : variantOf data < 4)
    (hfields : encodedLength (variantOf data) ≤ data.length) :
    ∃ (state : State) (padding : Bytes), state.variant = variantOf data ∧
      data = state.encode ++ padding := by
  obtain ⟨-, rest, hdata⟩ := exists_variant hfour
  have hlength : data.length = 4 + rest.length := by
    rw [hdata, List.length_append, Bytes.ofNatLE_length]
  match hnumber : variantOf data with
  | 0 => exact ⟨.uninitialized, rest, rfl, by rw [hdata, hnumber]; rfl⟩
  | 1 =>
      rw [hnumber, encodedLength] at hfields
      obtain ⟨info, padding, rfl⟩ := Reader.exact_info.exists_of_le rest (by omega)
      exact ⟨.initialized info, padding, rfl, by
        rw [hdata, hnumber]
        exact (List.append_assoc _ _ _).symm⟩
  | 2 =>
      rw [hnumber, encodedLength] at hfields
      obtain ⟨⟨info, delegation, credits, flags⟩, padding, rfl⟩ :=
        Reader.exact_delegated_fields.exists_of_le rest (by omega)
      exact ⟨.delegated info delegation credits flags, padding, rfl, by
        rw [hdata, hnumber]
        exact (List.append_assoc _ _ _).symm⟩
  | 3 => exact ⟨.rewardsPool, rest, rfl, by rw [hdata, hnumber]; rfl⟩
  | _ + 4 => omega

/-- Data that ends inside its variant or inside the fields of a known one is refused. -/
theorem decode_of_lt {data : Bytes} (h : data.length < 4 ∨
    variantOf data < 4 ∧ data.length < encodedLength (variantOf data)) :
    decode data = .error .truncated := by
  by_cases hfour : 4 ≤ data.length
  · obtain ⟨hbound, rest, hdata⟩ := exists_variant hfour
    obtain ⟨hvariant, hfields⟩ := h.resolve_left (by omega)
    have hlength : data.length = 4 + rest.length := by
      rw [hdata, List.length_append, Bytes.ofNatLE_length]
    rw [hdata, decode_append hbound]
    match hnumber : variantOf data with
    | 0 | 3 => exact absurd hfields (by simp [hnumber, encodedLength, hlength])
    | 1 =>
        rw [hnumber, encodedLength] at hfields
        simp [decodeFields, Reader.exact_info.none_of_lt rest (by omega), orTruncated, Except.map]
    | 2 =>
        rw [hnumber, encodedLength] at hfields
        simp [decodeFields, Reader.delegated_eq, Reader.map,
          Reader.exact_delegated_fields.none_of_lt rest (by omega), orTruncated]
    | _ + 4 => omega
  · rw [decode, Reader.take_of_lt (by omega)]

/-- Data with the number of no variant is refused. -/
theorem decode_of_unknown {data : Bytes} (hfour : 4 ≤ data.length) (hvariant : 4 ≤ variantOf data) :
    decode data = .error (.unknownVariant (variantOf data)) := by
  obtain ⟨hbound, rest, hdata⟩ := exists_variant hfour
  obtain ⟨number, hnumber⟩ := Nat.exists_eq_add_of_le' hvariant
  conv => lhs; rw [hdata]
  rw [decode_append hbound, hnumber]
  rfl

/-- All data that is refused, with its fault. -/
theorem decode_of_malformed {data : Bytes} (h : data.length < 4 ∨ 4 ≤ variantOf data ∨
    data.length < encodedLength (variantOf data)) :
    decode data = .error (if 4 ≤ data.length ∧ 4 ≤ variantOf data then
      .unknownVariant (variantOf data) else .truncated) := by
  split
  · exact decode_of_unknown (by omega) (by omega)
  · exact decode_of_lt (by omega)

/-- All other data starts with an encoding. -/
theorem exists_encode_eq_take {data : Bytes} (h : ¬(data.length < 4 ∨ 4 ≤ variantOf data ∨
    data.length < encodedLength (variantOf data))) :
    ∃ state : State, state.encode = data.take (encodedLength (variantOf data)) := by
  obtain ⟨state, padding, hvariant, hdata⟩ :=
    exists_encode_append data (by omega) (by omega) (by omega)
  refine ⟨state, ?_⟩
  rw [← hvariant, ← encode_length]
  conv => rhs; rw [hdata]
  exact List.take_left.symm

end State

/-! ## What is accepted -/

section

variable (address : Address) (lamports : UInt64) (clock : Clock) (history : History)

theorem classify_encode_append (state : State) (padding : Bytes) :
    classify address lamports (state.encode ++ padding) clock history
      = .ok (classifyState address lamports state clock history) := by
  rw [classify, State.decode_encode_append]

theorem classify_of_fault {data : Bytes} {fault : StakeDataFault}
    (h : State.decode data = .error fault) :
    classify address lamports data clock history = .error (.invalidStakeData address fault) := by
  rw [classify, h]

/-- Nothing behind the encoding has a say in the view. -/
theorem classify_of_take_eq {data : Bytes} {width : Nat} {state : State}
    (h : data.take width = state.encode) :
    classify address lamports data clock history
      = .ok (classifyState address lamports state clock history) := by
  rw [← List.take_append_drop width data, h, classify_encode_append]

/-- Data is refused, and only for its bytes, when it ends inside its variant or the fields of that variant
or has the number of no variant.  All other data starts with the encoding of an account, the view is that
of this account, and nothing behind the encoding has a say in it. -/
theorem classify_of_encoding (data : Bytes) :
    ((∃ error, classify address lamports data clock history = .error error) ↔
      data.length < 4 ∨ 4 ≤ State.variantOf data ∨
        data.length < State.encodedLength (State.variantOf data)) ∧
    (∀ error, classify address lamports data clock history = .error error →
      error = .invalidStakeData address (if 4 ≤ data.length ∧ 4 ≤ State.variantOf data then
        .unknownVariant (State.variantOf data) else .truncated)) ∧
    (∀ view, classify address lamports data clock history = .ok view →
      ∃ state : State, state.encode = data.take (State.encodedLength (State.variantOf data)) ∧
        view = classifyState address lamports state clock history ∧
        ∀ other : Bytes, other.take (State.encodedLength (State.variantOf data)) = state.encode →
          classify address lamports other clock history = .ok view) ∧
    ∀ (state : State) (padding : Bytes),
      classify address lamports (state.encode ++ padding) clock history
        = .ok (classifyState address lamports state clock history) := by
  by_cases hrefused : data.length < 4 ∨ 4 ≤ State.variantOf data ∨
      data.length < State.encodedLength (State.variantOf data)
  · have herror := classify_of_fault address lamports clock history
      (State.decode_of_malformed hrefused)
    refine ⟨iff_of_true ⟨_, herror⟩ hrefused, ?_, ?_, classify_encode_append _ _ _ _⟩
    · intro error h
      exact Except.error.inj (h.symm.trans herror)
    · intro view h
      cases h.symm.trans herror
  · obtain ⟨state, hstate⟩ := State.exists_encode_eq_take hrefused
    have hview := classify_of_take_eq address lamports clock history hstate.symm
    refine ⟨iff_of_false ?_ hrefused, ?_, ?_, classify_encode_append _ _ _ _⟩
    · rintro ⟨error, h⟩
      cases h.symm.trans hview
    · intro error h
      cases h.symm.trans hview
    · intro view h
      obtain rfl := Except.ok.inj (h.symm.trans hview)
      exact ⟨state, hstate, rfl, fun _ hother =>
        classify_of_take_eq address lamports clock history hother⟩

end

end Surety.Stake
