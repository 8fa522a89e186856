import Surety.Record.Row
import Surety.Settlement.Claims

/-!
# Records of settlements

Settlements, what they are created from, how they are funded, and what claims and closing answer.
-/

namespace Surety

namespace Settlement

/-- The fields of a record, in order. -/
def fieldNames : List String :=
  ["bond", "staker_authority", "merkle_root", "max_total_claim", "max_merkle_nodes",
    "lamports_funded", "lamports_claimed", "merkle_nodes_claimed", "epoch_created_for",
    "slot_created_at", "epochs_to_claim_settlement", "slots_to_start_claiming", "rent_collector",
    "split_rent_collector", "split_rent_amount"]

/-- The record of a settlement. -/
def toJson (s : Settlement) : Json :=
  .obj [
    ("bond", .ofAddress s.bond),
    ("staker_authority", .ofAddress s.stakerAuthority),
    ("merkle_root", .ofDigest s.merkleRoot),
    ("max_total_claim", .word s.maxTotalClaim),
    ("max_merkle_nodes", .word s.maxMerkleNodes),
    ("lamports_funded", .word s.lamportsFunded),
    ("lamports_claimed", .word s.lamportsClaimed),
    ("merkle_nodes_claimed", .word s.merkleNodesClaimed),
    ("epoch_created_for", .word s.epochCreatedFor),
    ("slot_created_at", .word s.slotCreatedAt),
    ("epochs_to_claim_settlement", .word s.epochsToClaim),
    ("slots_to_start_claiming", .word s.slotsToStartClaiming),
    ("rent_collector", .ofAddress s.rentCollector),
    ("split_rent_collector", .ofAddress? s.splitRentCollector),
    ("split_rent_amount", .word s.splitRentAmount)]

/-- Read a record. -/
def ofJson? (value : Json) : Option Settlement := do
  let row ← Json.row? fieldNames value
  let bond ← (row "bond").address?
  let stakerAuthority ← (row "staker_authority").address?
  let merkleRoot ← (row "merkle_root").digest?
  let maxTotalClaim ← (row "max_total_claim").word?
  let maxMerkleNodes ← (row "max_merkle_nodes").word?
  let lamportsFunded ← (row "lamports_funded").word?
  let lamportsClaimed ← (row "lamports_claimed").word?
  let merkleNodesClaimed ← (row "merkle_nodes_claimed").word?
  let epochCreatedFor ← (row "epoch_created_for").word?
  let slotCreatedAt ← (row "slot_created_at").word?
  let epochsToClaim ← (row "epochs_to_claim_settlement").word?
  let slotsToStartClaiming ← (row "slots_to_start_claiming").word?
  let rentCollector ← (row "rent_collector").address?
  let splitRentCollector ← (row "split_rent_collector").optionalAddress?
  let splitRentAmount ← (row "split_rent_amount").word?
  return ⟨bond, stakerAuthority, merkleRoot, maxTotalClaim, maxMerkleNodes, lamportsFunded,
    lamportsClaimed, merkleNodesClaimed, epochCreatedFor, slotCreatedAt, epochsToClaim,
    slotsToStartClaiming, rentCollector, splitRentCollector, splitRentAmount⟩

end Settlement

namespace SettlementTerms

/-- The fields of a record, in order. -/
def fieldNames : List String :=
  ["bond", "merkle_root", "max_total_claim", "max_merkle_nodes", "epoch", "slot",
    "rent_collector"]

/-- The record of some terms. -/
def toJson (t : SettlementTerms) : Json :=
  .obj [
    ("bond", .ofAddress t.bond),
    ("merkle_root", .ofDigest t.merkleRoot),
    ("max_total_claim", .word t.maxTotalClaim),
    ("max_merkle_nodes", .word t.maxMerkleNodes),
    ("epoch", .word t.epoch),
    ("slot", .word t.slot),
    ("rent_collector", .ofAddress t.rentCollector)]

/-- Read a record. -/
def ofJson? (value : Json) : Option SettlementTerms := do
  let row ← Json.row? fieldNames value
  let bond ← (row "bond").address?
  let merkleRoot ← (row "merkle_root").digest?
  let maxTotalClaim ← (row "max_total_claim").word?
  let maxMerkleNodes ← (row "max_merkle_nodes").word?
  let epoch ← (row "epoch").word?
  let slot ← (row "slot").word?
  let rentCollector ← (row "rent_collector").address?
  return ⟨bond, merkleRoot, maxTotalClaim, maxMerkleNodes, epoch, slot, rentCollector⟩

end SettlementTerms

/-- The record of a status. -/
def SettlementStatus.toJson (status : SettlementStatus) : Json := .str status.name

/-- Read a record. -/
def SettlementStatus.ofJson? (value : Json) : Option SettlementStatus :=
  (Json.unitVariant? value).bind SettlementStatus.ofName?

namespace FundingPlan

/-- The fields of a plan for a whole account, in order. -/
def wholeFieldNames : List String := ["stake_account", "staker_authority", "lamports_to_fund"]

/-- The fields of a plan that splits an account, in order. -/
def splitFieldNames : List String :=
  ["stake_account", "staker_authority", "lamports_to_fund", "split_lamports",
    "split_rent_collector", "split_rent_amount"]

/-- The record of a plan. -/
def toJson : FundingPlan → Json
  | .alreadyFunded => .str "AlreadyFunded"
  | .wholeAccount stakeAccount stakerAuthority lamports =>
      .obj [("WholeAccount", .obj [
        ("stake_account", .ofAddress stakeAccount),
        ("staker_authority", .ofAddress stakerAuthority),
        ("lamports_to_fund", .word lamports)])]
  | .split stakeAccount stakerAuthority lamports splitLamports collector amount =>
      .obj [("Split", .obj [
        ("stake_account", .ofAddress stakeAccount),
        ("staker_authority", .ofAddress stakerAuthority),
        ("lamports_to_fund", .word lamports),
        ("split_lamports", .word splitLamports),
        ("split_rent_collector", .ofAddress collector),
        ("split_rent_amount", .word amount)])]

/-- Read a plan for a whole account. -/
def whole? (fields : Json) : Option FundingPlan := do
  let row ← Json.row? wholeFieldNames fields
  let stakeAccount ← (row "stake_account").address?
  let stakerAuthority ← (row "staker_authority").address?
  let lamports ← (row "lamports_to_fund").word?
  return .wholeAccount stakeAccount stakerAuthority lamports

/-- Read a plan that splits an account. -/
def split? (fields : Json) : Option FundingPlan := do
  let row ← Json.row? splitFieldNames fields
  let stakeAccount ← (row "stake_account").address?
  let stakerAuthority ← (row "staker_authority").address?
  let lamports ← (row "lamports_to_fund").word?
  let splitLamports ← (row "split_lamports").word?
  let collector ← (row "split_rent_collector").address?
  let amount ← (row "split_rent_amount").word?
  return .split stakeAccount stakerAuthority lamports splitLamports collector amount

/-- Read a record. -/
def ofJson? (value : Json) : Option FundingPlan :=
  match Json.unitVariant? value with
  | some name => if name = "AlreadyFunded" then some .alreadyFunded else none
  | none =>
      match Json.recordVariant? value with
      | some (name, fields) =>
          if name = "WholeAccount" then whole? fields
          else if name = "Split" then split? fields
          else none
      | none => none

end FundingPlan

namespace ClaimRequest

/-- The fields of a record, in order. -/
def fieldNames : List String :=
  ["index", "stake_authority", "withdraw_authority", "claim", "proof"]

/-- The record of a request. -/
def toJson (r : ClaimRequest) : Json :=
  .obj [
    ("index", .word r.index),
    ("stake_authority", .ofAddress r.stakeAuthority),
    ("withdraw_authority", .ofAddress r.withdrawAuthority),
    ("claim", .word r.claim),
    ("proof", .ofRawList r.proof)]

/-- Read a record. -/
def ofJson? (value : Json) : Option ClaimRequest := do
  let row ← Json.row? fieldNames value
  let index ← (row "index").word?
  let stakeAuthority ← (row "stake_authority").address?
  let withdrawAuthority ← (row "withdraw_authority").address?
  let claim ← (row "claim").word?
  let proof ← (row "proof").required? Json.toRawList?
  return ⟨index, stakeAuthority, withdrawAuthority, claim, proof⟩

end ClaimRequest

namespace ClaimAdmission

/-- The fields of a record, in order. -/
def fieldNames : List String :=
  ["settlement", "index", "stake_authority", "withdraw_authority", "amount", "lamports_claimed",
    "merkle_nodes_claimed"]

/-- The record of an admission. -/
def toJson (a : ClaimAdmission) : Json :=
  .obj [
    ("settlement", .ofAddress a.settlement),
    ("index", .word a.index),
    ("stake_authority", .ofAddress a.stakeAuthority),
    ("withdraw_authority", .ofAddress a.withdrawAuthority),
    ("amount", .word a.amount),
    ("lamports_claimed", .word a.lamportsClaimed),
    ("merkle_nodes_claimed", .word a.merkleNodesClaimed)]

/-- Read a record. -/
def ofJson? (value : Json) : Option ClaimAdmission := do
  let row ← Json.row? fieldNames value
  let settlement ← (row "settlement").address?
  let index ← (row "index").word?
  let stakeAuthority ← (row "stake_authority").address?
  let withdrawAuthority ← (row "withdraw_authority").address?
  let amount ← (row "amount").word?
  let lamportsClaimed ← (row "lamports_claimed").word?
  let merkleNodesClaimed ← (row "merkle_nodes_claimed").word?
  return ⟨settlement, index, stakeAuthority, withdrawAuthority, amount, lamportsClaimed,
    merkleNodesClaimed⟩

end ClaimAdmission

namespace CloseReport

/-- The fields of a record, in order. -/
def fieldNames : List String :=
  ["settlement", "lamports_funded", "lamports_claimed", "merkle_nodes_claimed",
    "lamports_unclaimed", "rent_collector", "split_rent_collector", "split_rent_amount"]

/-- The record of a report. -/
def toJson (r : CloseReport) : Json :=
  .obj [
    ("settlement", .ofAddress r.settlement),
    ("lamports_funded", .word r.lamportsFunded),
    ("lamports_claimed", .word r.lamportsClaimed),
    ("merkle_nodes_claimed", .word r.merkleNodesClaimed),
    ("lamports_unclaimed", .word r.lamportsUnclaimed),
    ("rent_collector", .ofAddress r.rentCollector),
    ("split_rent_collector", .ofAddress? r.splitRentCollector),
    ("split_rent_amount", .word r.splitRentAmount)]

/-- Read a record. -/
def ofJson? (value : Json) : Option CloseReport := do
  let row ← Json.row? fieldNames value
  let settlement ← (row "settlement").address?
  let lamportsFunded ← (row "lamports_funded").word?
  let lamportsClaimed ← (row "lamports_claimed").word?
  let merkleNodesClaimed ← (row "merkle_nodes_claimed").word?
  let lamportsUnclaimed ← (row "lamports_unclaimed").word?
  let rentCollector ← (row "rent_collector").address?
  let splitRentCollector ← (row "split_rent_collector").optionalAddress?
  let splitRentAmount ← (row "split_rent_amount").word?
  return ⟨settlement, lamportsFunded, lamportsClaimed, merkleNodesClaimed, lamportsUnclaimed,
    rentCollector, splitRentCollector, splitRentAmount⟩

end CloseReport

end Surety
