import Surety.Proofs.Json.Text
import Surety.Proofs.Text.Base58
import Surety.Proofs.Text.Hex
import Surety.Record.Bond
import Surety.Record.Config
import Surety.Record.Merkle
import Surety.Record.Settlement
import Surety.Record.Withdraw

/-!
# Records and back

Eighteen kinds of records leave the program as JSON and come back.  A record is written as an object
whose fields have different names, so each field is found again by its name; what the fields hold is
text, a whole number of 64 bits, or lists and objects of these.

* `Json.faithful_record` reduces a kind of record to its fields: reading them by name gives the
  record, and each is given back by its own text.
* `RecordKind.faithful` says so of all kinds.
* `records_read_back` adds the texts inside records: an address has one text, and a root that was
  written in another way is written again in lower case and without marks.

Records that were written by hand, with fields left out, in another order or as a list, are not the
subject here.
-/

namespace Surety

namespace Json

/-! ## Addresses and roots -/

theorem toAddress_str_eq_ok_iff {s : String} {a : Address} :
    toAddress (.str s) = .ok a ↔ Address.ofText s = .ok a := by
  show (Address.ofText s).mapError ScalarFault.address = .ok a ↔ _
  cases Address.ofText s with
  | error fault => simp [Except.mapError]
  | ok found => simp [Except.mapError]

@[simp] theorem toAddress_ofAddress (a : Address) : toAddress (ofAddress a) = .ok a :=
  toAddress_str_eq_ok_iff.2 (Address.ofText_toText a)

/-- An address is written as the text it was read from. -/
theorem ofAddress_of_toAddress {s : String} {a : Address} (h : toAddress (.str s) = .ok a) :
    ofAddress a = .str s := by
  rw [ofAddress, Address.ofText_eq_ok_iff.1 (toAddress_str_eq_ok_iff.1 h)]

@[simp] theorem toAddress?_ofAddress? (a : Option Address) : toAddress? (ofAddress? a) = .ok a := by
  cases a with
  | none => rfl
  | some a =>
      show (toAddress (ofAddress a)).map some = _
      rw [toAddress_ofAddress]
      rfl

/-- A text is never read as a missing address. -/
theorem ofAddress?_of_toAddress? {s : String} {a : Option Address}
    (h : toAddress? (.str s) = .ok a) : ofAddress? a = .str s := by
  change (toAddress (.str s)).map some = .ok a at h
  cases hread : toAddress (.str s) with
  | error fault => simp [hread, Except.map] at h
  | ok found =>
      obtain rfl : some found = a := by simpa [hread, Except.map] using h
      exact ofAddress_of_toAddress hread

theorem toDigest_str_eq_ok_iff {s : String} {d : Digest} :
    toDigest (.str s) = .ok d ↔ Hex.decodeMarked32 s = .ok d := by
  show (Hex.decodeMarked32 s).mapError ScalarFault.hex = .ok d ↔ _
  cases Hex.decodeMarked32 s with
  | error fault => simp [Except.mapError]
  | ok found => simp [Except.mapError]

@[simp] theorem toDigest_ofDigest (d : Digest) : toDigest (ofDigest d) = .ok d :=
  toDigest_str_eq_ok_iff.2 (Hex.decodeMarked32_encode d)

/-! ## Fields -/

@[simp] theorem required?_given {α : Type} (value : Json) (read : Json → Option α) :
    (Slot.given value).required? read = read value := rfl

@[simp] theorem address?_given (a : Address) : (Slot.given (ofAddress a)).address? = some a := by
  simp [Slot.address?, Except.toOption]

@[simp] theorem optionalAddress?_given (a : Option Address) :
    (Slot.given (ofAddress? a)).optionalAddress? = some a := by
  simp [Slot.optionalAddress?, Slot.defaulted?, Except.toOption]

@[simp] theorem digest?_given (d : Digest) : (Slot.given (ofDigest d)).digest? = some d := by
  simp [Slot.digest?, Except.toOption]

@[simp] theorem word?_given (n : UInt64) : (Slot.given (word n)).word? = some n := by
  rw [Slot.word?, required?_given, word?_word]

@[simp] theorem byte?_given (n : UInt8) : (Slot.given (byte n)).byte? = some n := by
  rw [Slot.byte?, required?_given, byte?_byte]

@[simp] theorem proof?_given (proof : Option (List Digest)) :
    (Slot.given (Merkle.proofJson proof)).nullable? toRawList? = some proof := by
  cases proof with
  | none => rfl
  | some proof =>
      show (toRawList? (ofRawList proof)).map some = _
      rw [toRawList?_ofRawList, Option.map_some]

section

variable {depth : Nat}

@[simp] theorem plain_ofAddress (a : Address) : Plain depth (ofAddress a) := .str _

@[simp] theorem plain_ofAddress? (a : Option Address) : Plain depth (ofAddress? a) := by
  cases a with
  | none => exact .null
  | some a => exact plain_ofAddress a

@[simp] theorem plain_ofDigest (d : Digest) : Plain depth (ofDigest d) := .str _

@[simp] theorem plain_word (n : UInt64) : Plain depth (word n) := by
  have hn : n.toNat < 2 ^ 64 := n.toNat_lt
  exact .int (by omega) (by omega)

@[simp] theorem plain_byte (n : UInt8) : Plain depth (byte n) := by
  have hn : n.toNat < 2 ^ 8 := n.toNat_lt
  exact .int (by omega) (by omega)

/-- A list is given back when all that is written into it is. -/
theorem plain_arr_map {α : Type} {write : α → Json} {vs : List α}
    (h : ∀ v ∈ vs, Plain depth (write v)) : Plain (depth + 1) (.arr (vs.map write)) := by
  apply Plain.arr
  intro item hitem
  obtain ⟨v, hv, rfl⟩ := List.mem_map.1 hitem
  exact h v hv

@[simp] theorem plain_ofRaw32 (b : Bytes32) : Plain (depth + 1) (ofRaw32 b) :=
  plain_arr_map fun x _ => plain_byte x

@[simp] theorem plain_ofRawList (bs : List Bytes32) : Plain (depth + 2) (ofRawList bs) :=
  plain_arr_map fun b _ => plain_ofRaw32 b

@[simp] theorem plain_proofJson (proof : Option (List Digest)) :
    Plain (depth + 2) (Merkle.proofJson proof) := by
  cases proof with
  | none => exact .null
  | some proof => exact plain_ofRawList proof

end

/-! ## Records -/

theorem field?_of_mem {fields : List (String × Json)} (hnodup : (fields.map Prod.fst).Nodup)
    {field : String × Json} (hfield : field ∈ fields) : field? fields field.1 = some field.2 := by
  have hfound : fields.find? (fun entry => entry.1 == field.1) = some field := by
    induction fields with
    | nil => cases hfield
    | cons first fields ih =>
        rw [List.map_cons, List.nodup_cons] at hnodup
        rcases List.mem_cons.1 hfield with rfl | hrest
        · simp
        · have hne : first.1 ≠ field.1 := by
            intro heq
            exact hnodup.1 (heq ▸ List.mem_map_of_mem hrest)
          simp [hne, ih hnodup.2 hrest]
  rw [field?, hfound]

section

variable {α : Type} {names : List String} {fields : List (String × Json)} (hnodup : names.Nodup)
  (hnames : fields.map Prod.fst = names)

include hnodup hnames

/-- Reading the fields of a record by name is reading the record. -/
theorem read_record {read : Row → Option α} {v : α}
    (hread : ∀ row : Row, (∀ field ∈ fields, row field.1 = .given field.2) → read row = some v) :
    (row? names (.obj fields) >>= read) = some v := by
  -- a record that is an object gives the first field of a name, and there is no other
  apply hread
  intro field hfield
  simp only [field?_of_mem (hnames ▸ hnodup) hfield]

theorem plain_record {depth : Nat} (hplain : ∀ field ∈ fields, Plain depth field.2) :
    Plain (depth + 1) (.obj fields) :=
  .obj (hnames ▸ hnodup) hplain

end

/-- An alternative with payload is given back when its payload is. -/
theorem plain_variant {depth : Nat} {payload : Json} (name : String) (h : Plain depth payload) :
    Plain (depth + 1) (.obj [(name, payload)]) :=
  .obj (List.nodup_singleton name) (by simpa using h)

/-- What is written is read as the value that was written, and its own text gives it back wherever
so many lists and objects may be inside each other. -/
structure Faithful {α : Type} (levels : Nat) (write : α → Json) (read? : Json → Option α) :
    Prop where
  read?_write : ∀ v, read? (write v) = some v
  plain_write : ∀ v depth, Plain (depth + levels) (write v)

/-- A kind of record is faithful when its fields have different names, when reading them by name
gives the record, and when what they hold is given back. -/
theorem faithful_record {α : Type} {levels : Nat} {names : List String}
    {fields : α → List (String × Json)} {read : Row → Option α} (hnodup : names.Nodup)
    (hnames : ∀ v, (fields v).map Prod.fst = names)
    (hread : ∀ v row, (∀ field ∈ fields v, row field.1 = .given field.2) → read row = some v)
    (hplain : ∀ v depth, ∀ field ∈ fields v, Plain (depth + levels) field.2) :
    Faithful (levels + 1) (fun v => .obj (fields v)) (fun value => row? names value >>= read) where
  read?_write v := read_record hnodup (hnames v) (hread v)
  plain_write v depth := plain_record hnodup (hnames v) (hplain v depth)

namespace Faithful

variable {α : Type} {levels : Nat} {write : α → Json} {read? : Json → Option α}

theorem mono {more : Nat} (h : Faithful levels write read?) (hmore : levels ≤ more) :
    Faithful more write read? where
  read?_write := h.read?_write
  plain_write v depth := by
    obtain ⟨k, rfl⟩ := Nat.exists_eq_add_of_le' hmore
    rw [← Nat.add_assoc]
    exact h.plain_write v (depth + k)

/-- The text of a record is read as that record. -/
theorem read?_parse?_render (h : Faithful levels write read?) (hlevels : levels ≤ maxDepth)
    (v : α) : (parse? (render (write v))).bind read? = some v := by
  obtain ⟨depth, hdepth⟩ := Nat.exists_eq_add_of_le' hlevels
  have hplain : Plain maxDepth (write v) := hdepth ▸ h.plain_write v depth
  rw [parse?_render hplain, Option.bind_some, h.read?_write]

end Faithful

end Json

open Json

/-!
## The kinds of records

For each kind four things are said: the names of its fields are different, they are the names that are
written, reading the fields by name gives the record, and what they hold is given back.
-/

theorem Merkle.ClaimRecord.faithful :
    Faithful 3 Merkle.ClaimRecord.toJson Merkle.ClaimRecord.ofJson? :=
  faithful_record (by decide) (fun _ => by rfl) (by simp +contextual) (by simp)

theorem Merkle.IndexedClaimRecord.faithful :
    Faithful 3 Merkle.IndexedClaimRecord.toJson Merkle.IndexedClaimRecord.ofJson? :=
  faithful_record (by decide) (fun _ => by rfl) (by simp +contextual) (by simp)

theorem Config.faithful : Faithful 1 Config.toJson Config.ofJson? :=
  faithful_record (by decide) (fun _ => by rfl)
    (by simp +contextual [Config.ofSlots?, Except.toOption]) (by simp)

theorem Bond.faithful : Faithful 2 Bond.toJson Bond.ofJson? :=
  faithful_record (by decide) (fun _ => by rfl) (by simp +contextual) (by simp)

theorem Settlement.faithful : Faithful 1 Settlement.toJson Settlement.ofJson? :=
  faithful_record (by decide) (fun _ => by rfl) (by simp +contextual) (by simp)

theorem SettlementTerms.faithful : Faithful 1 SettlementTerms.toJson SettlementTerms.ofJson? :=
  faithful_record (by decide) (fun _ => by rfl) (by simp +contextual) (by simp)

theorem SettlementStatus.faithful :
    Faithful 0 SettlementStatus.toJson SettlementStatus.ofJson? where
  read?_write := SettlementStatus.ofName?_name
  plain_write _ _ := .str _

theorem FundingPlan.faithful : Faithful 2 FundingPlan.toJson FundingPlan.ofJson? where
  read?_write plan := by
    cases plan with
    | alreadyFunded => rfl
    | wholeAccount stakeAccount stakerAuthority lamports =>
        exact read_record (by decide : FundingPlan.wholeFieldNames.Nodup) rfl (by simp +contextual)
    | split stakeAccount stakerAuthority lamports splitLamports collector amount =>
        exact read_record (by decide : FundingPlan.splitFieldNames.Nodup) rfl (by simp +contextual)
  plain_write plan depth := by
    cases plan with
    | alreadyFunded => exact .str _
    | wholeAccount stakeAccount stakerAuthority lamports =>
        apply plain_variant
        exact plain_record (by decide : FundingPlan.wholeFieldNames.Nodup) rfl (by simp)
    | split stakeAccount stakerAuthority lamports splitLamports collector amount =>
        apply plain_variant
        exact plain_record (by decide : FundingPlan.splitFieldNames.Nodup) rfl (by simp)

theorem ClaimRequest.faithful : Faithful 3 ClaimRequest.toJson ClaimRequest.ofJson? :=
  faithful_record (by decide) (fun _ => by rfl) (by simp +contextual) (by simp)

theorem ClaimAdmission.faithful : Faithful 1 ClaimAdmission.toJson ClaimAdmission.ofJson? :=
  faithful_record (by decide) (fun _ => by rfl) (by simp +contextual) (by simp)

theorem CloseReport.faithful : Faithful 1 CloseReport.toJson CloseReport.ofJson? :=
  faithful_record (by decide) (fun _ => by rfl) (by simp +contextual) (by simp)

theorem ClaimsHeader.faithful : Faithful 2 ClaimsHeader.toJson ClaimsHeader.ofJson? :=
  faithful_record (by decide) (fun _ => by rfl) (by simp +contextual) (by simp)

theorem Stake.Stage.faithful : Faithful 0 Stake.Stage.toJson Stake.Stage.ofJson? where
  read?_write := Stake.Stage.ofName?_name
  plain_write _ _ := .str _

theorem Stake.MergePlan.faithful : Faithful 3 Stake.MergePlan.toJson Stake.MergePlan.ofJson? :=
  faithful_record (by decide) (fun _ => by rfl) (by simp +contextual) (by simp)

theorem WithdrawRequest.faithful : Faithful 1 WithdrawRequest.toJson WithdrawRequest.ofJson? :=
  faithful_record (by decide) (fun _ => by rfl) (by simp +contextual) (by simp)

theorem CancelReport.faithful : Faithful 1 CancelReport.toJson CancelReport.ofJson? :=
  faithful_record (by decide) (fun _ => by rfl) (by simp +contextual) (by simp)

theorem WithdrawStep.faithful : Faithful 2 WithdrawStep.toJson WithdrawStep.ofJson? where
  read?_write step := by
    cases step with
    | whole stakeAccount lamports =>
        exact read_record (by decide : WithdrawStep.wholeFieldNames.Nodup) rfl (by simp +contextual)
    | split stakeAccount splitLamports remainingLamports =>
        exact read_record (by decide : WithdrawStep.splitFieldNames.Nodup) rfl (by simp +contextual)
  plain_write step depth := by
    cases step with
    | whole stakeAccount lamports =>
        apply plain_variant
        exact plain_record (by decide : WithdrawStep.wholeFieldNames.Nodup) rfl (by simp)
    | split stakeAccount splitLamports remainingLamports =>
        apply plain_variant
        exact plain_record (by decide : WithdrawStep.splitFieldNames.Nodup) rfl (by simp)

@[simp] theorem WithdrawStep.listOfJson?_listToJson (steps : List WithdrawStep) :
    listOfJson? (listToJson steps) = some steps := by
  show (steps.map toJson).mapM ofJson? = some steps
  induction steps with
  | nil => rfl
  | cons step steps ih => simp [WithdrawStep.faithful.read?_write, ih]

@[simp] theorem WithdrawStep.plain_listToJson (depth : Nat) (steps : List WithdrawStep) :
    Plain (depth + 3) (listToJson steps) :=
  plain_arr_map fun step _ => WithdrawStep.faithful.plain_write step depth

theorem WithdrawPlan.faithful : Faithful 4 WithdrawPlan.toJson WithdrawPlan.ofJson? :=
  faithful_record (by decide) (fun _ => by rfl) (by simp +contextual) (by simp)

/-- The kinds of records. -/
inductive RecordKind where
  | claimRecord
  | indexedClaimRecord
  | config
  | bond
  | settlement
  | settlementTerms
  | settlementStatus
  | fundingPlan
  | claimRequest
  | claimAdmission
  | closeReport
  | claimsHeader
  | stage
  | withdrawRequest
  | cancelReport
  | withdrawStep
  | withdrawPlan
  | mergePlan

namespace RecordKind

/-- What a record of a kind holds. -/
def Value : RecordKind → Type
  | claimRecord => Merkle.ClaimRecord
  | indexedClaimRecord => Merkle.IndexedClaimRecord
  | config => Config
  | bond => Bond
  | settlement => Settlement
  | settlementTerms => SettlementTerms
  | settlementStatus => SettlementStatus
  | fundingPlan => FundingPlan
  | claimRequest => ClaimRequest
  | claimAdmission => ClaimAdmission
  | closeReport => CloseReport
  | claimsHeader => ClaimsHeader
  | stage => Stake.Stage
  | withdrawRequest => WithdrawRequest
  | cancelReport => CancelReport
  | withdrawStep => WithdrawStep
  | withdrawPlan => WithdrawPlan
  | mergePlan => Stake.MergePlan

/-- The record of a value. -/
def write : (kind : RecordKind) → kind.Value → Json
  | claimRecord => Merkle.ClaimRecord.toJson
  | indexedClaimRecord => Merkle.IndexedClaimRecord.toJson
  | config => Config.toJson
  | bond => Bond.toJson
  | settlement => Settlement.toJson
  | settlementTerms => SettlementTerms.toJson
  | settlementStatus => SettlementStatus.toJson
  | fundingPlan => FundingPlan.toJson
  | claimRequest => ClaimRequest.toJson
  | claimAdmission => ClaimAdmission.toJson
  | closeReport => CloseReport.toJson
  | claimsHeader => ClaimsHeader.toJson
  | stage => Stake.Stage.toJson
  | withdrawRequest => WithdrawRequest.toJson
  | cancelReport => CancelReport.toJson
  | withdrawStep => WithdrawStep.toJson
  | withdrawPlan => WithdrawPlan.toJson
  | mergePlan => Stake.MergePlan.toJson

/-- Read a record. -/
def read? : (kind : RecordKind) → Json → Option kind.Value
  | claimRecord => Merkle.ClaimRecord.ofJson?
  | indexedClaimRecord => Merkle.IndexedClaimRecord.ofJson?
  | config => Config.ofJson?
  | bond => Bond.ofJson?
  | settlement => Settlement.ofJson?
  | settlementTerms => SettlementTerms.ofJson?
  | settlementStatus => SettlementStatus.ofJson?
  | fundingPlan => FundingPlan.ofJson?
  | claimRequest => ClaimRequest.ofJson?
  | claimAdmission => ClaimAdmission.ofJson?
  | closeReport => CloseReport.ofJson?
  | claimsHeader => ClaimsHeader.ofJson?
  | stage => Stake.Stage.ofJson?
  | withdrawRequest => WithdrawRequest.ofJson?
  | cancelReport => CancelReport.ofJson?
  | withdrawStep => WithdrawStep.ofJson?
  | withdrawPlan => WithdrawPlan.ofJson?
  | mergePlan => Stake.MergePlan.ofJson?

/-- Every kind of record is faithful, with at most four lists and objects inside each other. -/
theorem faithful (kind : RecordKind) : Faithful 4 kind.write kind.read? := by
  cases kind with
  | claimRecord => exact Merkle.ClaimRecord.faithful.mono (by decide)
  | indexedClaimRecord => exact Merkle.IndexedClaimRecord.faithful.mono (by decide)
  | config => exact Config.faithful.mono (by decide)
  | bond => exact Bond.faithful.mono (by decide)
  | settlement => exact Settlement.faithful.mono (by decide)
  | settlementTerms => exact SettlementTerms.faithful.mono (by decide)
  | settlementStatus => exact SettlementStatus.faithful.mono (by decide)
  | fundingPlan => exact FundingPlan.faithful.mono (by decide)
  | claimRequest => exact ClaimRequest.faithful.mono (by decide)
  | claimAdmission => exact ClaimAdmission.faithful.mono (by decide)
  | closeReport => exact CloseReport.faithful.mono (by decide)
  | claimsHeader => exact ClaimsHeader.faithful.mono (by decide)
  | stage => exact Stake.Stage.faithful.mono (by decide)
  | withdrawRequest => exact WithdrawRequest.faithful.mono (by decide)
  | cancelReport => exact CancelReport.faithful.mono (by decide)
  | withdrawStep => exact WithdrawStep.faithful.mono (by decide)
  | withdrawPlan => exact WithdrawPlan.faithful
  | mergePlan => exact Stake.MergePlan.faithful.mono (by decide)

end RecordKind

/-- Every value of every kind of record is read from its record, and from the text of its record.  A
text that is read as an address, or where an address may be missing, is what that address is written
as.  A text that is read as a root is written again as itself without its marks and in lower case,
which is 64 digits and read as the same root. -/
theorem records_read_back :
    (∀ (kind : RecordKind) (v : kind.Value), kind.read? (kind.write v) = some v ∧
      (parse? (render (kind.write v))).bind kind.read? = some v) ∧
    (∀ (s : String) (a : Address), toAddress (.str s) = .ok a → ofAddress a = .str s) ∧
    (∀ (s : String) (a : Option Address), toAddress? (.str s) = .ok a → ofAddress? a = .str s) ∧
    ∀ (s : String) (d : Digest), toDigest (.str s) = .ok d →
      ∃ digits : String, ofDigest d = .str digits ∧
        digits.toList = (Hex.dropMarks s.toList).map Char.toLower ∧
        digits.length = 64 ∧ (∀ c ∈ digits.toList, c ∈ Hex.lowerDigits) ∧
        toDigest (.str digits) = .ok d := by
  refine ⟨fun kind v => ⟨?_, ?_⟩, ?_, ?_, ?_⟩
  · exact kind.faithful.read?_write v
  · exact kind.faithful.read?_parse?_render (by decide) v
  · intro s a hread
    exact ofAddress_of_toAddress hread
  · intro s a hread
    exact ofAddress?_of_toAddress? hread
  · intro s d hread
    have hdecode := toDigest_str_eq_ok_iff.1 hread
    refine ⟨Hex.encode d.toList, rfl, Hex.encode_of_decodeMarked32 hdecode, ?_, ?_, ?_⟩
    · rw [← String.length_toList, Hex.encode, String.toList_ofList, Hex.encodeChars_length,
        d.length_eq]
    · intro c hc
      rw [Hex.encode, String.toList_ofList] at hc
      exact Hex.mem_lowerDigits_of_mem hc
    · exact toDigest_ofDigest d

/-- An address with leading zero bytes, and a root in upper and lower case behind two marks. -/
theorem marked_root_read_back :
    let address : Address := ⟨List.replicate 31 0 ++ [1], rfl⟩
    let text := "11111111111111111111111111111112"
    let root : Digest := ⟨List.replicate 32 0xab, rfl⟩
    let marked := String.ofList (['0', 'x', '0', 'x'] ++ (List.replicate 32 ['A', 'b']).flatten)
    (toAddress (.str text) = .ok address ∧ ofAddress address = .str text) ∧
      (toAddress? (.str text) = .ok (some address) ∧ ofAddress? (some address) = .str text) ∧
      toDigest (.str marked) = .ok root ∧
      ∃ digits : String, ofDigest root = .str digits ∧
        digits.toList = (Hex.dropMarks marked.toList).map Char.toLower ∧
        digits.length = 64 ∧ (∀ c ∈ digits.toList, c ∈ Hex.lowerDigits) ∧
        toDigest (.str digits) = .ok root := by
  intro address text root marked
  have haddress : toAddress (.str text) = .ok address := by
    rw [toAddress_str_eq_ok_iff]
    decide +kernel
  have hpresent : toAddress? (.str text) = .ok (some address) := by
    show (toAddress (.str text)).map some = _
    rw [haddress]
    rfl
  have hroot : toDigest (.str marked) = .ok root := by
    rw [toDigest_str_eq_ok_iff]
    decide +kernel
  obtain ⟨-, hwritten, hoptional, hlower⟩ := records_read_back
  exact ⟨⟨haddress, hwritten text address haddress⟩, ⟨hpresent, hoptional text _ hpresent⟩, hroot,
    hlower marked root hroot⟩

end Surety
