import Surety.Record.Row
import Surety.Withdraw.Request

/-!
# Records of withdrawals

Requests, plans with their steps, and the reports of cancelled requests.
-/

namespace Surety

namespace WithdrawRequest

/-- The fields of a record, in order. -/
def fieldNames : List String :=
  ["vote_account", "bond", "epoch", "created_at_slot", "requested_amount", "withdrawn_amount",
    "bump"]

/-- The record of a request. -/
def toJson (r : WithdrawRequest) : Json :=
  .obj [
    ("vote_account", .ofAddress r.voteAccount),
    ("bond", .ofAddress r.bond),
    ("epoch", .word r.epoch),
    ("created_at_slot", .word r.createdAtSlot),
    ("requested_amount", .word r.requestedAmount),
    ("withdrawn_amount", .word r.withdrawnAmount),
    ("bump", .byte r.bump)]

/-- Read a record. -/
def ofJson? (value : Json) : Option WithdrawRequest := do
  let row ← Json.row? fieldNames value
  let voteAccount ← (row "vote_account").address?
  let bond ← (row "bond").address?
  let epoch ← (row "epoch").word?
  let createdAtSlot ← (row "created_at_slot").word?
  let requestedAmount ← (row "requested_amount").word?
  let withdrawnAmount ← (row "withdrawn_amount").word?
  let bump ← (row "bump").byte?
  return ⟨voteAccount, bond, epoch, createdAtSlot, requestedAmount, withdrawnAmount, bump⟩

end WithdrawRequest

namespace CancelReport

/-- The fields of a record, in order. -/
def fieldNames : List String :=
  ["withdraw_request", "requested_amount", "withdrawn_amount", "cancelled_amount"]

/-- The record of a report. -/
def toJson (r : CancelReport) : Json :=
  .obj [
    ("withdraw_request", .ofAddress r.withdrawRequest),
    ("requested_amount", .word r.requestedAmount),
    ("withdrawn_amount", .word r.withdrawnAmount),
    ("cancelled_amount", .word r.cancelledAmount)]

/-- Read a record. -/
def ofJson? (value : Json) : Option CancelReport := do
  let row ← Json.row? fieldNames value
  let withdrawRequest ← (row "withdraw_request").address?
  let requestedAmount ← (row "requested_amount").word?
  let withdrawnAmount ← (row "withdrawn_amount").word?
  let cancelledAmount ← (row "cancelled_amount").word?
  return ⟨withdrawRequest, requestedAmount, withdrawnAmount, cancelledAmount⟩

end CancelReport

namespace WithdrawStep

/-- The fields of a step for a whole account, in order. -/
def wholeFieldNames : List String := ["stake_account", "lamports"]

/-- The fields of a step that splits an account, in order. -/
def splitFieldNames : List String := ["stake_account", "split_lamports", "remaining_lamports"]

/-- The record of a step. -/
def toJson : WithdrawStep → Json
  | .whole stakeAccount lamports =>
      .obj [("Whole", .obj [
        ("stake_account", .ofAddress stakeAccount),
        ("lamports", .word lamports)])]
  | .split stakeAccount splitLamports remainingLamports =>
      .obj [("Split", .obj [
        ("stake_account", .ofAddress stakeAccount),
        ("split_lamports", .word splitLamports),
        ("remaining_lamports", .word remainingLamports)])]

/-- Read a step for a whole account. -/
def whole? (fields : Json) : Option WithdrawStep := do
  let row ← Json.row? wholeFieldNames fields
  let stakeAccount ← (row "stake_account").address?
  let lamports ← (row "lamports").word?
  return .whole stakeAccount lamports

/-- Read a step that splits an account. -/
def split? (fields : Json) : Option WithdrawStep := do
  let row ← Json.row? splitFieldNames fields
  let stakeAccount ← (row "stake_account").address?
  let splitLamports ← (row "split_lamports").word?
  let remainingLamports ← (row "remaining_lamports").word?
  return .split stakeAccount splitLamports remainingLamports

/-- Read a record. -/
def ofJson? (value : Json) : Option WithdrawStep :=
  match Json.recordVariant? value with
  | some (name, fields) =>
      if name = "Whole" then whole? fields
      else if name = "Split" then split? fields
      else none
  | none => none

/-- The record of a list of steps. -/
def listToJson (steps : List WithdrawStep) : Json := .arr (steps.map toJson)

/-- Read a list of steps. -/
def listOfJson? : Json → Option (List WithdrawStep)
  | .arr items => items.mapM ofJson?
  | _ => none

end WithdrawStep

namespace WithdrawPlan

/-- The fields of a record, in order. -/
def fieldNames : List String :=
  ["withdraw_request", "bond", "request_epoch", "request_created_at_slot", "requested_amount",
    "withdrawn_amount_before", "steps", "total_amount", "new_staker", "new_withdrawer"]

/-- The record of a plan. -/
def toJson (p : WithdrawPlan) : Json :=
  .obj [
    ("withdraw_request", .ofAddress p.withdrawRequest),
    ("bond", .ofAddress p.bond),
    ("request_epoch", .word p.requestEpoch),
    ("request_created_at_slot", .word p.requestCreatedAtSlot),
    ("requested_amount", .word p.requestedAmount),
    ("withdrawn_amount_before", .word p.withdrawnBefore),
    ("steps", WithdrawStep.listToJson p.steps),
    ("total_amount", .word p.totalAmount),
    ("new_staker", .ofAddress p.newStaker),
    ("new_withdrawer", .ofAddress p.newWithdrawer)]

/-- Read a record. -/
def ofJson? (value : Json) : Option WithdrawPlan := do
  let row ← Json.row? fieldNames value
  let withdrawRequest ← (row "withdraw_request").address?
  let bond ← (row "bond").address?
  let requestEpoch ← (row "request_epoch").word?
  let requestCreatedAtSlot ← (row "request_created_at_slot").word?
  let requestedAmount ← (row "requested_amount").word?
  let withdrawnBefore ← (row "withdrawn_amount_before").word?
  let steps ← (row "steps").required? WithdrawStep.listOfJson?
  let totalAmount ← (row "total_amount").word?
  let newStaker ← (row "new_staker").address?
  let newWithdrawer ← (row "new_withdrawer").address?
  return ⟨withdrawRequest, bond, requestEpoch, requestCreatedAtSlot, requestedAmount,
    withdrawnBefore, steps, totalAmount, newStaker, newWithdrawer⟩

end WithdrawPlan

end Surety
