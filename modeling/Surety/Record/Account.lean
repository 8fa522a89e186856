import Surety.Record.Bond
import Surety.Stake.Account

/-!
# Records of stake accounts

What is seen of a stake account at one epoch, with addresses as text.  Nothing is left out: what an
account does not have is null.
-/

namespace Surety.Stake

/-- The record of a lockup. -/
def Lockup.toJson (lockup : Lockup) : Json :=
  .obj [
    ("unix_timestamp", .int lockup.unixTimestamp.toInt),
    ("epoch", .word lockup.epoch),
    ("custodian", .ofAddress lockup.custodian)]

namespace Account

/-- An epoch, or null. -/
def epochJson (epoch : Option UInt64) : Json := (epoch.map .word).getD .null

/-- The record of an account. -/
def toJson (account : Account) : Json :=
  .obj [
    ("address", .ofAddress account.address),
    ("withdrawer", .ofAddress? account.withdrawer),
    ("staker", .ofAddress? account.staker),
    ("voter", .ofAddress? account.voter),
    ("activation_epoch", epochJson account.activationEpoch),
    ("deactivation_epoch", epochJson account.deactivationEpoch),
    ("is_cooling_down", .bool account.isCoolingDown),
    ("is_locked_up", .bool account.isLockedUp),
    ("balance_lamports", .word account.balance),
    ("staked_lamports", .word account.staked),
    ("rent_exempt_reserve", .word account.rentExemptReserve),
    ("lockup", (account.lockup.map Lockup.toJson).getD .null),
    ("state", account.stage.toJson)]

end Account

end Surety.Stake
