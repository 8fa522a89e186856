import Surety.Stake.Suitability

/-!
# The size of stake accounts

An account that stays delegated holds its rent and the least stake.  The sum of the two is cut off at
the largest amount.  Nothing is lost by that: no account can be split where the sum was cut off, so
splitting is decided as if amounts were unbounded.

* `minimalSize_toNat` is the size over natural numbers; `minimalSize_minimumStake` says that the floor
  under the configured minimum may be raised to once or twice.
* `Account.Divisible` is what splitting asks for over unbounded numbers, and
  `passes_checkSplittable_minimumStake_iff` says that the check asks for the same.
-/

namespace Surety.Stake

theorem minimalSize_toNat (rentExemptReserve minStake : UInt64) :
    (minimalSize rentExemptReserve minStake).toNat
      = min (rentExemptReserve.toNat + max minStake.toNat minStakeFloor.toNat) (2 ^ 64 - 1) := by
  have hstake : (if minStake < minStakeFloor then minStakeFloor else minStake).toNat
      = max minStake.toNat minStakeFloor.toNat := by
    split
    · rename_i hlt
      rw [UInt64.lt_iff_toNat_lt] at hlt
      omega
    · rename_i hge
      rw [UInt64.lt_iff_toNat_lt] at hge
      omega
  rw [minimalSize, addSaturating_toNat, hstake]

/-- The minimal size of a stake account is positive, also where the sum is cut off. -/
theorem minimalSize_pos (rentExemptReserve minStake : UInt64) :
    0 < (minimalSize rentExemptReserve minStake).toNat := by
  have hfloor : 0 < minStakeFloor.toNat := by decide
  rw [minimalSize_toNat]
  omega

/-- The minimum of a configuration is above the floor already, so raising it changes nothing. -/
theorem minimalSize_minimumStake (rentExemptReserve : UInt64) (config : Config) :
    minimalSize rentExemptReserve config.minimumStake
      = minimalSize rentExemptReserve config.configuredMinimum := by
  apply UInt64.toNat_inj.1
  rw [minimalSize_toNat, minimalSize_toNat, config.minimumStake_toNat]
  omega

section

variable {account : Account} {amount minStake : UInt64}

theorem passes_checkSplittable_iff :
    passes (checkSplittable account amount minStake) = true ↔
      amount.toNat + (minimalSize account.rentExemptReserve minStake).toNat ≤ account.balance.toNat ∧
        minimalSize account.rentExemptReserve minStake ≤ amount := by
  unfold checkSplittable
  by_cases hwithin : amount ≤ account.balance
  · have hrest := UInt64.toNat_sub_of_le _ _ hwithin
    have hle := UInt64.le_iff_toNat_le.1 hwithin
    have hkept : minimalSize account.rentExemptReserve minStake ≤ account.balance - amount ↔
        amount.toNat + (minimalSize account.rentExemptReserve minStake).toNat
          ≤ account.balance.toNat := by
      rw [UInt64.le_iff_toNat_le, hrest]
      omega
    simp only [hwithin, hkept, true_and]
    split
    · rename_i hboth
      simp [passes, Except.toBool, hboth]
    · rename_i hnot
      simpa [passes, Except.toBool] using hnot
  · have hover : ¬amount.toNat + (minimalSize account.rentExemptReserve minStake).toNat
        ≤ account.balance.toNat := by
      rw [UInt64.le_iff_toNat_le] at hwithin
      omega
    simp [passes, Except.toBool, hwithin, hover]

/-- A refusal to split names the account, what it holds, the amount and the minimal size. -/
theorem checkSplittable_of_not_passes
    (h : ¬passes (checkSplittable account amount minStake) = true) :
    checkSplittable account amount minStake
      = .error (.notBigEnoughToSplit account.address account.balance amount
          (minimalSize account.rentExemptReserve minStake)) := by
  unfold checkSplittable at h ⊢
  dsimp only at h ⊢
  split
  · rename_i hboth
    rw [if_pos hboth] at h
    exact absurd rfl h
  · rfl

end

namespace Account

/-- What an account has to hold to stay delegated, over unbounded numbers. -/
def leastSize (account : Account) (config : Config) : Nat :=
  account.rentExemptReserve.toNat + max config.configuredMinimum.toNat minStakeFloor.toNat

/-- An amount can be split off when it is a least size and leaves one behind. -/
def Divisible (account : Account) (config : Config) (amount : Nat) : Prop :=
  amount + account.leastSize config ≤ account.balance.toNat ∧ account.leastSize config ≤ amount

end Account

theorem passes_checkSplittable_minimumStake_iff {account : Account} {config : Config}
    {amount : UInt64} :
    passes (checkSplittable account amount config.minimumStake) = true ↔
      account.Divisible config amount.toNat := by
  have hbalance := account.balance.toNat_lt
  have hamount := amount.toNat_lt
  have hsize := minimalSize_toNat account.rentExemptReserve config.configuredMinimum
  rw [passes_checkSplittable_iff, minimalSize_minimumStake, UInt64.le_iff_toNat_le,
    Account.Divisible, Account.leastSize]
  omega

end Surety.Stake
