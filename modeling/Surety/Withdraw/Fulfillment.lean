import Surety.Stake.Suitability
import Surety.Withdraw.Request

/-!
# Fulfilling requests to withdraw

The stake accounts of the bond are taken whole, smallest first, while they fit into what remains.
The rest is split off the smallest account that can be split.  When the accounts run out the request
is fulfilled in part.
-/

namespace Surety

/-- What a plan depends on besides the request and the stake accounts. -/
structure WithdrawContext where
  config : Config
  clock : Clock
  /-- staker and withdrawer of the stake accounts of bonds -/
  bondsAuthority : Address
  newStaker : Address
  newWithdrawer : Address
  deriving DecidableEq

namespace WithdrawRequest

open Stake (Account)

/-- Smaller balances come first, equal balances are ordered by address. -/
def smallerFirst (a b : Account) : Bool :=
  decide (a.balance < b.balance) || (a.balance == b.balance && decide (a.address ≤ b.address))

/-- The check that an account belongs to the bond of the request. -/
def checkOwned (request : WithdrawRequest) (bondsAuthority : Address) (account : Account) :
    Result Unit :=
  Stake.checkOwnedByBond account request.voteAccount bondsAuthority

/-- The accounts that belong to the bond, smallest first. -/
def eligible (request : WithdrawRequest) (bondsAuthority : Address) (accounts : List Account) :
    List Account :=
  (accounts.filter fun account =>
    Stake.passes (request.checkOwned bondsAuthority account)).mergeSort smallerFirst

/-- The refusal when no account belongs to the bond: that of the first account. -/
def noneEligible (request : WithdrawRequest) (bondsAuthority : Address) (accounts : List Account) :
    Error :=
  match accounts with
  | [] => .invalidWithdrawRequest (.noStakeAccounts request.bond)
  | account :: _ =>
      match request.checkOwned bondsAuthority account with
      | .error e => e
      | .ok () => .invalidWithdrawRequest (.noStakeAccounts request.bond)

/-- The accounts taken whole and those left over, when `needed` lamports are still missing. -/
def takeWhole : (needed : UInt64) → List Account → List Account × List Account
  | _, [] => ([], [])
  | needed, account :: rest =>
      if needed = 0 then ([], [])
      else if account.balance ≤ needed then
        let (taken, left) := takeWhole (needed - account.balance) rest
        (account :: taken, left)
      else
        let (taken, left) := takeWhole needed rest
        (taken, account :: left)

/-- The lamports of accounts together. -/
def totalBalance (accounts : List Account) : UInt64 :=
  accounts.foldl (fun total account => total + account.balance) 0

/-- The step that takes an account whole. -/
def wholeStep (account : Account) : WithdrawStep := .whole account.address account.balance

/-- The step that splits an amount off. -/
def splitStep (amount : UInt64) (account : Account) : WithdrawStep :=
  .split account.address amount (account.balance - amount)

/-- The step that covers what is missing from the accounts that were not taken.  Without such
accounts there is none; when none can be split, the first one tells why. -/
def finalSplit (needed minStake : UInt64) (left : List Account) : Result (Option WithdrawStep) :=
  if needed = 0 then .ok none
  else
    match left with
    | [] => .ok none
    | first :: _ =>
        match left.find? fun account =>
            Stake.passes (Stake.checkSplittable account needed minStake) with
        | some account => .ok (some (splitStep needed account))
        | none =>
            match Stake.checkSplittable first needed minStake with
            | .error e => .error e
            | .ok () => .ok none

/-- The steps of a plan and the lamports that they move. -/
def selectSteps (needed minStake : UInt64) (accounts : List Account) :
    Result (List WithdrawStep × UInt64) :=
  let (taken, left) := takeWhole needed accounts
  let moved := totalBalance taken
  match finalSplit (needed - moved) minStake left with
  | .error e => .error e
  | .ok none => .ok (taken.map wholeStep, moved)
  | .ok (some step) => .ok (taken.map wholeStep ++ [step], moved + (needed - moved))

/-- The plan that fulfils a request from the given stake accounts. -/
def plan (request : WithdrawRequest) (accounts : List Account) (context : WithdrawContext) :
    Result WithdrawPlan := do
  request.checkLockup context.config context.clock
  if request.remaining = 0 then
    throw request.alreadyFulfilled
  let eligible := request.eligible context.bondsAuthority accounts
  if eligible.isEmpty then
    throw (request.noneEligible context.bondsAuthority accounts)
  let (steps, total) ← selectSteps request.remaining context.config.minimumStake eligible
  return {
    withdrawRequest := request.address context.config
    bond := request.bond
    requestEpoch := request.epoch
    requestCreatedAtSlot := request.createdAtSlot
    requestedAmount := request.requestedAmount
    withdrawnBefore := request.withdrawnAmount
    steps := steps
    totalAmount := total
    newStaker := context.newStaker
    newWithdrawer := context.newWithdrawer }

end WithdrawRequest

end Surety
