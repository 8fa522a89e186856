import Surety.Bond
import Surety.Word

/-!
# Requests to withdraw from a bond

A request asks for an amount and can be fulfilled after a number of epochs, in several parts.  The
withdrawn amount only grows and never exceeds the requested one.  A plan carries the identity and the
progress of the request that it was made for, and is accepted by no other.
-/

namespace Surety

/-- One move of lamports out of a bond. -/
inductive WithdrawStep where
  /-- the whole account gets new authorities -/
  | whole (stakeAccount : Address) (lamports : UInt64)
  /-- a part is split off and gets new authorities, the rest stays -/
  | split (stakeAccount : Address) (splitLamports remainingLamports : UInt64)
  deriving DecidableEq

namespace WithdrawStep

/-- The account that a step takes from. -/
def stakeAccount : WithdrawStep → Address
  | .whole account _ => account
  | .split account _ _ => account

/-- The lamports that leave the bond. -/
def lamports : WithdrawStep → UInt64
  | .whole _ lamports => lamports
  | .split _ lamports _ => lamports

end WithdrawStep

/-- How a request is fulfilled, as a whole or in part. -/
structure WithdrawPlan where
  withdrawRequest : Address
  bond : Address
  /-- creation epoch, creation slot and amount of the request that the plan is for -/
  requestEpoch : UInt64
  requestCreatedAtSlot : UInt64
  requestedAmount : UInt64
  /-- what was withdrawn when the plan was made -/
  withdrawnBefore : UInt64
  steps : List WithdrawStep
  totalAmount : UInt64
  newStaker : Address
  newWithdrawer : Address
  deriving DecidableEq

/-- The withdrawn amount once the plan is applied. -/
def WithdrawPlan.withdrawnAfter (plan : WithdrawPlan) : UInt64 :=
  addSaturating plan.withdrawnBefore plan.totalAmount

/-- A request to get back part of a bond. -/
structure WithdrawRequest where
  voteAccount : Address
  bond : Address
  /-- the epoch of creation -/
  epoch : UInt64
  /-- the slot of creation, which tells apart requests made again for one bond -/
  createdAtSlot : UInt64
  requestedAmount : UInt64
  withdrawnAmount : UInt64
  bump : UInt8
  deriving DecidableEq

/-- What a cancelled request leaves. -/
structure CancelReport where
  withdrawRequest : Address
  requestedAmount : UInt64
  withdrawnAmount : UInt64
  /-- what stays in the bond -/
  cancelledAmount : UInt64
  deriving DecidableEq

namespace WithdrawRequest

/-- A request by an authority that may change the bond. -/
def create (bond : Bond) (config : Config) (authority : Address) (voteWithdrawer : Option Address)
    (amount : UInt64) (clock : Clock) : Result WithdrawRequest :=
  match bond.checkChange config authority voteWithdrawer with
  | .error e => .error e
  | .ok () =>
      if amount = 0 then .error (.invalidWithdrawRequest .zeroAmount)
      else
        let bondAddress := bond.address config
        .ok
          { voteAccount := bond.voteAccount
            bond := bondAddress
            epoch := clock.epoch
            createdAtSlot := clock.slot
            requestedAmount := amount
            withdrawnAmount := 0
            bump := (Derivation.withdrawRequest bondAddress).bump config }

/-- The address of a request. -/
def address (config : Config) (request : WithdrawRequest) : Address :=
  (Derivation.withdrawRequest request.bond).address config

/-- What is still to be withdrawn. -/
def remaining (request : WithdrawRequest) : UInt64 :=
  subSaturating request.requestedAmount request.withdrawnAmount

/-- Whether nothing is left to withdraw. -/
def isFulfilled (request : WithdrawRequest) : Bool := decide (request.remaining = 0)

/-- The first epoch in which the request can be fulfilled. -/
def withdrawableFrom (request : WithdrawRequest) (config : Config) : UInt64 :=
  addSaturating request.epoch config.withdrawLockupEpochs

/-- Whether a plan was made for this request, and not for an earlier one of the bond. -/
def isPlannedBy (request : WithdrawRequest) (plan : WithdrawPlan) : Bool :=
  decide (plan.bond = request.bond) && decide (plan.requestEpoch = request.epoch)
    && decide (plan.requestCreatedAtSlot = request.createdAtSlot)
    && decide (plan.requestedAmount = request.requestedAmount)

/-- Refuse a fulfilment that comes too early. -/
def checkLockup (request : WithdrawRequest) (config : Config) (clock : Clock) : Result Unit :=
  if clock.epoch < request.withdrawableFrom config then
    .error (.notYetElapsed (request.withdrawableFrom config) clock.epoch)
  else .ok ()

/-- The refusal of a request that is fulfilled, or that a plan was not made for. -/
def alreadyFulfilled (request : WithdrawRequest) : Error :=
  .alreadyFulfilled request.requestedAmount request.withdrawnAmount

/-- Cancel a request of a bond by an authority that may change the bond. -/
def cancel (request : WithdrawRequest) (bond : Bond) (config : Config) (authority : Address)
    (voteWithdrawer : Option Address) : Result CancelReport :=
  match bond.checkChange config authority voteWithdrawer with
  | .error e => .error e
  | .ok () =>
      if bond.address config ≠ request.bond then
        .error (.invalidWithdrawRequest (.belongsToBond request.bond))
      else
        .ok
          { withdrawRequest := request.address config
            requestedAmount := request.requestedAmount
            withdrawnAmount := request.withdrawnAmount
            cancelledAmount := request.remaining }

/-- Record the lamports that an applied plan has moved. -/
def apply (request : WithdrawRequest) (plan : WithdrawPlan) : Result WithdrawRequest :=
  if plan.bond ≠ request.bond then
    .error (.invalidWithdrawRequest (.planForBond plan.bond request.bond))
  else if !request.isPlannedBy plan then .error request.alreadyFulfilled
  else if request.isFulfilled ∨ plan.withdrawnBefore ≠ request.withdrawnAmount then
    .error request.alreadyFulfilled
  else
    match addChecked request.withdrawnAmount plan.totalAmount with
    | none => .error (.arithmeticOverflow .withdrawnAmount)
    | some withdrawn =>
        if request.requestedAmount < withdrawn then
          .error (.invalidWithdrawRequest
            (.exceedsRemaining plan.totalAmount request.remaining))
        else .ok { request with withdrawnAmount := withdrawn }

end WithdrawRequest

end Surety
