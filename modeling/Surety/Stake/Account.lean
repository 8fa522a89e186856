import Surety.Error
import Surety.Stake.Delegation

/-!
# Stake accounts

The content of a stake account and what can be seen of it at one epoch.  The stage follows from the
stake of the delegation alone: nothing effective and nothing activating is deactivated, anything
deactivating is deactivating, anything activating is delegating, and the rest is active.  An account
whose stake cannot be computed in 64 bits has no view.
-/

namespace Surety.Stake

/-- What every initialized stake account holds. -/
structure Meta where
  rentExemptReserve : UInt64
  staker : Address
  withdrawer : Address
  lockup : Lockup
  deriving DecidableEq

/-- The content of a stake account. -/
inductive State where
  | uninitialized
  | initialized (info : Meta)
  | delegated (info : Meta) (delegation : Delegation) (creditsObserved : UInt64) (flags : UInt8)
  | rewardsPool
  deriving DecidableEq

namespace State

/-- The authorities, the reserve and the lockup, when there are any. -/
def info? : State → Option Meta
  | .uninitialized => none
  | .initialized info => some info
  | .delegated info _ _ _ => some info
  | .rewardsPool => none

/-- The delegation, when there is one. -/
def delegation? : State → Option Delegation
  | .delegated _ delegation _ _ => some delegation
  | _ => none

end State

/-- The stage of a delegation with the given stake. -/
def Activation.stage (a : Activation) : Stage :=
  if a.effective = 0 ∧ a.activating = 0 then .deactivated
  else if 0 < a.deactivating then .deactivating
  else if 0 < a.activating then .delegating
  else .active

/-- All stake of a delegation that is not at rest, at most the largest 64-bit number. -/
def Activation.staked (a : Activation) : UInt64 :=
  UInt64.ofNat (min (a.effective + a.activating + a.deactivating) largestWord)

/-- The stage of an account at an epoch and the stake that is not at rest. -/
def State.observe (history : History) (epoch : Nat) : State → Option (Stage × UInt64)
  | .uninitialized => some (.uninitialized, 0)
  | .initialized _ => some (.initialized, 0)
  | .rewardsPool => some (.rewardsPool, 0)
  | .delegated _ delegation _ _ =>
      (delegation.activation history epoch).map fun activation =>
        (activation.stage, activation.staked)

/-- A stake account as it is seen at one epoch. -/
structure Account where
  address : Address
  withdrawer : Option Address
  staker : Option Address
  voter : Option Address
  activationEpoch : Option UInt64
  deactivationEpoch : Option UInt64
  isCoolingDown : Bool
  isLockedUp : Bool
  balance : UInt64
  /-- effective, activating and deactivating stake together -/
  staked : UInt64
  rentExemptReserve : UInt64
  lockup : Option Lockup
  stage : Stage
  deriving DecidableEq

/-- The view of an account with the given content, whose stage and stake are known. -/
def State.view (state : State) (address : Address) (lamports : UInt64) (clock : Clock)
    (stage : Stage) (staked : UInt64) : Account :=
  let info := state.info?
  let delegation := state.delegation?
  { address := address
    withdrawer := info.map (·.withdrawer)
    staker := info.map (·.staker)
    voter := delegation.map (·.voter)
    activationEpoch := delegation.map (·.activationEpoch)
    deactivationEpoch :=
      (delegation.map (·.deactivationEpoch)).filter fun epoch => epoch.toNat != farEpoch
    isCoolingDown := stage == .deactivating
    isLockedUp := (info.map fun info => info.lockup.isInForce clock).getD false
    balance := lamports
    staked := staked
    rentExemptReserve := (info.map (·.rentExemptReserve)).getD 0
    lockup := info.map (·.lockup)
    stage := stage }

/-- The view of an account with the given content at the epoch of a clock; `none` when its stake
cannot be computed in 64 bits. -/
def classifyState (address : Address) (lamports : UInt64) (state : State) (clock : Clock)
    (history : History) : Option Account :=
  (state.observe history clock.epoch.toNat).map fun (stage, staked) =>
    state.view address lamports clock stage staked

end Surety.Stake
