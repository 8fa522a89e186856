import Surety.Text.Base58

/-!
# Clocks, lockups and the stages of a stake account

The time that every rule is evaluated at, the condition under which a stake account is locked, and
the stages that its delegation passes through.
-/

namespace Surety

/-- The point in time at which accounts are looked at. -/
structure Clock where
  epoch : UInt64
  slot : UInt64
  unixTimestamp : Int64
  deriving DecidableEq

namespace Stake

/-- Until when a stake account is locked, and who may lift the lock. -/
structure Lockup where
  unixTimestamp : Int64
  epoch : UInt64
  custodian : Address
  deriving DecidableEq

/-- Whether the lock holds at a point in time: either limit is still ahead. -/
def Lockup.isInForce (lockup : Lockup) (clock : Clock) : Bool :=
  decide (clock.unixTimestamp < lockup.unixTimestamp) || decide (clock.epoch < lockup.epoch)

/-- How a lockup shows inside a message. -/
def Lockup.describe (lockup : Lockup) : String :=
  "Lockup \x7b unix_timestamp: " ++ toString lockup.unixTimestamp
    ++ ", epoch: " ++ toString lockup.epoch
    ++ ", custodian: " ++ lockup.custodian.toText ++ " \x7d"

/-- How a lockup that may be missing shows inside a message. -/
def Lockup.describe? : Option Lockup → String
  | none => "None"
  | some lockup => "Some(" ++ lockup.describe ++ ")"

/-- The stages of a stake account as seen at one epoch. -/
inductive Stage where
  | uninitialized
  /-- authorities are set, nothing is delegated -/
  | initialized
  /-- delegated, and not yet fully active -/
  | delegating
  | active
  | deactivating
  | deactivated
  | rewardsPool
  deriving DecidableEq

/-- The name of a stage in messages and records. -/
def Stage.name : Stage → String
  | .uninitialized => "Uninitialized"
  | .initialized => "Initialized"
  | .delegating => "Delegating"
  | .active => "Active"
  | .deactivating => "Deactivating"
  | .deactivated => "Deactivated"
  | .rewardsPool => "RewardsPool"

/-- All stages in the order of their declaration. -/
def Stage.all : List Stage :=
  [.uninitialized, .initialized, .delegating, .active, .deactivating, .deactivated, .rewardsPool]

/-- The stage of a name. -/
def Stage.ofName? (name : String) : Option Stage := Stage.all.find? (·.name == name)

@[simp] theorem Stage.ofName?_name (s : Stage) : Stage.ofName? s.name = some s := by
  cases s <;> decide

end Stake

end Surety
