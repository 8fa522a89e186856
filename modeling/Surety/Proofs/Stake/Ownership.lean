import Mathlib.Tactic.Common
import Surety.Stake.Suitability

/-!
# Stake that belongs to a bond

An account belongs to a bond when the bonds authority is its staker and its withdrawer, it is
delegated to the vote account of the bond and it is not locked.  All planners ask for this or for a
part of it; the staker is asked first, so an account with another staker is refused because of it.
-/

namespace Surety.Stake

theorem passes_iff {check : Result Unit} : passes check = true ↔ check = .ok () := by
  cases check with
  | error e => simp [passes, Except.toBool]
  | ok => simp [passes, Except.toBool]

variable {account : Account} {voter bondsAuthority : Address}

theorem Account.isOwnedBy_iff :
    account.isOwnedBy bondsAuthority = true ↔
      account.staker = some bondsAuthority ∧ account.withdrawer = some bondsAuthority := by
  rw [isOwnedBy, Bool.and_eq_true, decide_eq_true_eq, decide_eq_true_eq]

theorem checkOwnedByBond_eq_ok_iff :
    checkOwnedByBond account voter bondsAuthority = .ok () ↔
      account.isOwnedBy bondsAuthority = true ∧ account.voter = some voter ∧
        account.isLockedUp = false := by
  rw [Account.isOwnedBy_iff]
  constructor
  · intro h
    unfold checkOwnedByBond at h
    split at h
    · cases h
    · rename_i hstaker
      split at h
      · cases h
      · rename_i hwithdrawer
        split at h
        · cases h
        · rename_i hvoter
          split at h
          · cases h
          · rename_i hlocked
            exact ⟨⟨not_not.1 hstaker, not_not.1 hwithdrawer⟩, not_not.1 hvoter,
              Bool.not_eq_true _ ▸ hlocked⟩
  · rintro ⟨⟨hstaker, hwithdrawer⟩, hvoter, hlocked⟩
    simp only [checkOwnedByBond, hstaker, hwithdrawer, hvoter, hlocked, ne_eq, not_true_eq_false,
      if_false, Bool.false_eq_true]

/-- A refusal names the account. -/
theorem stakeNotEligible_of_checkOwnedByBond {e : Error}
    (h : checkOwnedByBond account voter bondsAuthority = .error e) :
    ∃ reason, e = .stakeNotEligible account.address reason := by
  unfold checkOwnedByBond at h
  split at h
  · exact ⟨_, (Except.error.inj h).symm⟩
  · split at h
    · exact ⟨_, (Except.error.inj h).symm⟩
    · split at h
      · exact ⟨_, (Except.error.inj h).symm⟩
      · split at h
        · exact ⟨_, (Except.error.inj h).symm⟩
        · cases h

/-- An account with another staker is refused for its staker, whatever else is wrong with it. -/
theorem checkOwnedByBond_of_staker (h : account.staker ≠ some bondsAuthority) (voter : Address) :
    checkOwnedByBond account voter bondsAuthority
      = .error (.stakeNotEligible account.address (.staker account.staker bondsAuthority)) :=
  if_pos h

end Surety.Stake
