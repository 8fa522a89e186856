import Surety.Text.Base58

/-!
# Protocol parameters

The parameters that every rule takes as an argument, with their production values as defaults.  The
configured minimum of a stake account can raise the floor of one whole coin but never lower it.
-/

namespace Surety

/-- The least delegated lamports of a stake account, whatever is configured. -/
def minStakeFloor : UInt64 := 1000000000

/-- The parameters of the protocol. -/
structure Config where
  programId : Address
  /-- the account that bonds are created under -/
  configAddress : Address
  /-- epochs after the creation of a settlement during which it can be claimed -/
  epochsToClaim : UInt64
  /-- slots after the creation of a settlement before it can be claimed -/
  slotsToStartClaiming : UInt64
  /-- epochs after the creation of a withdraw request before it can be fulfilled -/
  withdrawLockupEpochs : UInt64
  /-- the configured minimum of delegated lamports -/
  configuredMinimum : UInt64
  deriving DecidableEq

namespace Config

/-- The production parameters. -/
def production : Config where
  programId :=
    (Address.ofText? "vBoNdEvzMrSai7is21XgVYik65mqtaKXuSdMBJ1xkW4").getD Address.unset
  configAddress :=
    (Address.ofText? "vbMaRfmTCg92HWGzmd53APkMNpPnGVGZTUHwUJQkXAU").getD Address.unset
  epochsToClaim := 3
  slotsToStartClaiming := 0
  withdrawLockupEpochs := 3
  configuredMinimum := minStakeFloor

/-- The least delegated lamports of a stake account. -/
def minimumStake (config : Config) : UInt64 :=
  if config.configuredMinimum < minStakeFloor then minStakeFloor else config.configuredMinimum

/-- Which parameter is not set. -/
inductive Fault where
  | programId
  | configAddress
  deriving DecidableEq

/-- The text of a parameter that is not set. -/
def Fault.message : Fault → String
  | .programId => "Engine config program_id must be set"
  | .configAddress => "Engine config config_address must be set"

/-- The first parameter that is not set, if there is one. -/
def fault? (config : Config) : Option Fault :=
  if config.programId = Address.unset then some .programId
  else if config.configAddress = Address.unset then some .configAddress
  else none

theorem minimumStake_toNat (config : Config) :
    config.minimumStake.toNat = max config.configuredMinimum.toNat minStakeFloor.toNat := by
  simp only [minimumStake, UInt64.lt_iff_toNat_lt]
  split <;> omega

end Config

end Surety
