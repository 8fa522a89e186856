import Surety.Config
import Surety.Stake.Account
import Surety.Word

/-!
# What a stake account may be used for

The rules under which a stake account belongs to a bond, may fund a settlement, may be split and may
be merged.  Each rule names the first condition that fails.
-/

namespace Surety.Stake

namespace Account

/-- Whether an authority is both staker and withdrawer. -/
def isOwnedBy (account : Account) (authority : Address) : Bool :=
  decide (account.staker = some authority) && decide (account.withdrawer = some authority)

/-- Whether the delegation changes within the observed epoch. -/
def isTransient (account : Account) : Bool :=
  (account.stage == .delegating || account.stage == .deactivating) && decide (0 < account.staked)

end Account

/-- The least balance of a stake account that can stay delegated. -/
def minimalSize (rentExemptReserve minStake : UInt64) : UInt64 :=
  addSaturating rentExemptReserve (if minStake < minStakeFloor then minStakeFloor else minStake)

/-- Refuse an account that the bonds authority does not own, that is delegated elsewhere, or that is
locked. -/
def checkOwnedByBond (account : Account) (voter bondsAuthority : Address) : Result Unit :=
  if account.staker ≠ some bondsAuthority then
    .error (.stakeNotEligible account.address (.staker account.staker bondsAuthority))
  else if account.withdrawer ≠ some bondsAuthority then
    .error (.stakeNotEligible account.address (.withdrawer account.withdrawer bondsAuthority))
  else if account.voter ≠ some voter then
    .error (.stakeNotEligible account.address (.voter account.voter voter))
  else if account.isLockedUp then .error (.stakeNotEligible account.address .locked)
  else .ok ()

/-- Refuse an account that cannot fund a settlement: it has to belong to the bond, be active and have
the minimal size. -/
def checkUsableForFunding (account : Account) (voter bondsAuthority : Address) (minStake : UInt64) :
    Result Unit :=
  match checkOwnedByBond account voter bondsAuthority with
  | .error e => .error e
  | .ok () =>
      let minimal := minimalSize account.rentExemptReserve minStake
      if account.stage ≠ .active then
        .error (.stakeNotEligible account.address (.notActive account.stage))
      else if account.balance < minimal then
        .error (.stakeNotEligible account.address (.tooSmall account.balance minimal))
      else .ok ()

/-- Refuse to merge two accounts: they have to be different, both active or both deactivated, and
agree in vote account, lockup and authorities. -/
def checkMergeable (destination source : Account) : Result Unit :=
  let refuse (reason : MergeObstacle) : Result Unit :=
    .error (.mergeMismatch destination.address source.address reason)
  if destination.address = source.address then refuse .sameAccount
  else if destination.isTransient || source.isTransient then
    refuse (.transient destination.stage source.stage)
  else if ¬((destination.stage = .active ∧ source.stage = .active)
      ∨ (destination.stage = .deactivated ∧ source.stage = .deactivated)) then
    refuse (.stages destination.stage source.stage)
  else if destination.voter ≠ source.voter then
    refuse (.voters destination.voter source.voter)
  else if destination.lockup ≠ source.lockup then
    refuse (.lockups destination.lockup source.lockup)
  else if destination.staker ≠ source.staker ∨ destination.withdrawer ≠ source.withdrawer then
    refuse .authorities
  else .ok ()

/-- Refuse to split an amount off when one of the two parts would be below the minimal size. -/
def checkSplittable (account : Account) (amount minStake : UInt64) : Result Unit :=
  let minimal := minimalSize account.rentExemptReserve minStake
  if amount ≤ account.balance ∧ minimal ≤ account.balance - amount ∧ minimal ≤ amount then .ok ()
  else .error (.notBigEnoughToSplit account.address account.balance amount minimal)

/-- Whether a check passes. -/
def passes (check : Result Unit) : Bool := check.toBool

/-- How soon a claim should be paid into an account of a stage; stages without a rank cannot take
one. -/
def Stage.claimRank? : Stage → Option Nat
  | .initialized => some 0
  | .deactivated => some 1
  | .deactivating => some 2
  | .active => some 3
  | .delegating => some 4
  | .uninitialized => none
  | .rewardsPool => none

/-- The accounts that a claim can be paid into, with their ranks. -/
def claimCandidates (accounts : List Account) : List (Nat × Account) :=
  accounts.filterMap fun account =>
    if account.isLockedUp then none
    else account.stage.claimRank?.map fun rank => (rank, account)

/-- The account that a claim is best paid into: the first one of the lowest rank. -/
def claimTarget? (accounts : List Account) : Option Address :=
  (((claimCandidates accounts).mergeSort fun a b => decide (a.1 ≤ b.1)).head?).map (·.2.address)

end Surety.Stake
