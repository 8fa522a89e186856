import Surety.Proofs.Address.Separation
import Surety.Proofs.Settlement.Funding
import Surety.Proofs.Stake.Merging
import Surety.Proofs.Withdraw.Selection

/-!
# Stake that backs a settlement

An account that funds a settlement gets the authority of the settlement as its staker.  From then on
it is no stake of a bond: it cannot fund a settlement again, no withdrawal takes it and no merge
touches it.  Otherwise the lamports that claims are paid from could be counted twice or leave.

* `Stake.Account.Withheld` says this of an account, `withheld_of_staker` proves it for every account
  whose staker is not the bonds authority.
* `Derivation.staker_ne_or_collision` tells the two authorities apart.
* `withheld_or_collision` puts the two together.

Plans name accounts by address, so the addresses in a list have to be pairwise different; nothing else
is asked of the other accounts.
-/

namespace Surety

open Stake (Account)

/-- Under a bonds authority, funding refuses the account for its staker, and neither the steps of a
withdraw plan nor a merge plan name it. -/
structure Stake.Account.Withheld (bondsAuthority : Address) (account : Account) : Prop where
  funding : ∀ (s : Settlement) (bond : Bond) (splitRentCollector : Address) (config : Config),
    s.isFullyFunded = false →
      s.planFunding account bond bondsAuthority splitRentCollector config
        = .error (.stakeNotEligible account.address (.staker account.staker bondsAuthority))
  withdrawing : ∀ (request : WithdrawRequest) (accounts : List Account) (context : WithdrawContext)
    (plan : WithdrawPlan), account ∈ accounts → (accounts.map (·.address)).Nodup →
      context.bondsAuthority = bondsAuthority → request.plan accounts context = .ok plan →
        ∀ step ∈ plan.steps, step.stakeAccount ≠ account.address
  merging : ∀ accounts : List Account, account ∈ accounts → (accounts.map (·.address)).Nodup →
    ∀ plan ∈ Stake.planMerges accounts bondsAuthority,
      plan.destination ≠ account.address ∧ account.address ∉ plan.sources

section

variable {account : Account} {bondsAuthority : Address}

/-- An owned account is another one than an account with another staker, and has another address. -/
theorem Stake.Account.address_ne_of_staker {accounts : List Account} {owned : Account}
    (h : account.staker ≠ some bondsAuthority) (haccount : account ∈ accounts)
    (hdistinct : (accounts.map (·.address)).Nodup) (hmem : owned ∈ accounts)
    (howned : owned.isOwnedBy bondsAuthority = true) : owned.address ≠ account.address := by
  intro haddress
  obtain rfl : owned = account :=
    List.inj_on_of_nodup_map hdistinct hmem haccount haddress
  exact h (Stake.Account.isOwnedBy_iff.1 howned).1

/-- An account with another staker than the bonds authority is withheld. -/
theorem Stake.Account.withheld_of_staker (h : account.staker ≠ some bondsAuthority) :
    account.Withheld bondsAuthority where
  funding s bond splitRentCollector config hopen := by
    rw [Settlement.isFullyFunded, decide_eq_false_iff_not, UInt64.not_le] at hopen
    have hunusable : FundingOffer.checkUsable
        ⟨account, bond, bondsAuthority, splitRentCollector, config⟩
        = .error (.stakeNotEligible account.address (.staker account.staker bondsAuthority)) := by
      rw [FundingOffer.checkUsable, Stake.checkUsableForFunding,
        Stake.checkOwnedByBond_of_staker h]
    exact Settlement.planOffer_of_unusable hopen hunusable
  withdrawing request accounts context plan haccount hdistinct hauthority hplan step hstep := by
    obtain ⟨owned, hmem, hchecked, haddress⟩ := WithdrawRequest.owned_of_mem_steps hplan hstep
    have howned : owned.isOwnedBy bondsAuthority = true := by
      rw [hauthority] at hchecked
      exact (Stake.checkOwnedByBond_eq_ok_iff.1 hchecked).1
    rw [haddress]
    exact Stake.Account.address_ne_of_staker h haccount hdistinct hmem howned
  merging accounts haccount hdistinct plan hplan := by
    obtain ⟨key, hgrouped⟩ := Stake.grouped_of_mem_planMerges hplan
    -- the destination and the sources are named for one reason, being in the group
    have hother : ∀ address ∈ plan.named, address ≠ account.address := by
      intro address hnamed
      obtain ⟨owned, hmem, hkey, rfl⟩ := hgrouped address hnamed
      have howned : owned.isOwnedBy bondsAuthority = true :=
        (Stake.mergeKey?_eq_some_iff.1 hkey).1
      exact Stake.Account.address_ne_of_staker h haccount hdistinct hmem howned
    refine ⟨hother _ List.mem_cons_self, ?_⟩
    intro hsource
    exact hother _ (List.mem_cons_of_mem _ hsource) rfl

end

/-! ## The two authorities -/

/-- The staker of a settlement is not the bonds authority, or the strings hashed for the two collide:
the seeds of the two kinds differ in width. -/
theorem Derivation.staker_ne_or_collision (settlement : Address) (config : Config) :
    (Derivation.settlementStaker settlement).address config ≠ config.bondsAuthority ∨
      Sha256.Collision [(Derivation.settlementStaker settlement).hashed config,
        Derivation.bondsWithdrawer.hashed config] := by
  by_cases hsame : (Derivation.settlementStaker settlement).address config = config.bondsAuthority
  · rcases hashed_eq_or_collision hsame with hstrings | hcollision
    · -- one string would be hashed for two kinds of derivation
      have hkinds : Derivation.settlementStaker settlement = Derivation.bondsWithdrawer :=
        (hashed_injective hstrings).1
      cases hkinds
    · exact .inr hcollision
  · exact .inl hsame

namespace Settlement

/-- The staker that a new settlement asks for is derived from its own address. -/
theorem stakerAuthority_of_create {terms : SettlementTerms} {config : Config}
    {settlement : Settlement} (h : create terms config = .ok settlement) :
    settlement.stakerAuthority
      = (Derivation.settlementStaker (settlement.address config)).address config := by
  unfold create at h
  split at h
  · cases h
  · cases h
    rfl

/-- Stake whose staker is the authority of a settlement is never used as stake of a bond again, or
the strings hashed for that authority and for the bonds authority are different and have the same
hash. -/
theorem withheld_or_collision {terms : SettlementTerms} {config : Config}
    {settlement : Settlement} {account : Account}
    (hcreate : create terms config = .ok settlement)
    (hstaker : account.staker = some settlement.stakerAuthority) :
    account.Withheld config.bondsAuthority ∨
      Sha256.Collision
        [(Derivation.settlementStaker (settlement.address config)).hashed config,
          Derivation.bondsWithdrawer.hashed config] := by
  rcases Derivation.staker_ne_or_collision (settlement.address config) config
    with hne | hcollision
  · have hforeign : account.staker ≠ some config.bondsAuthority := by
      rw [hstaker, stakerAuthority_of_create hcreate]
      exact fun hsome => hne (Option.some.inj hsome)
    exact .inl (Stake.Account.withheld_of_staker hforeign)
  · exact .inr hcollision

/-- An active account that the bonds authority can withdraw, but that a settlement has as its own. -/
theorem funded_account_withheld :
    let terms : SettlementTerms :=
      ⟨Bytes32.zero, Bytes32.zero, 10, 9, 0, 0, Bytes32.zero⟩
    let config : Config := ⟨Bytes32.zero, Bytes32.zero, 3, 0, 3, 0⟩
    ∃ settlement, create terms config = .ok settlement ∧
      let account : Account :=
        { address := Bytes32.zero
          withdrawer := some config.bondsAuthority
          staker := some settlement.stakerAuthority
          voter := some Bytes32.zero
          activationEpoch := some 0
          deactivationEpoch := none
          isCoolingDown := false
          isLockedUp := false
          balance := 5000000000
          staked := 4000000000
          rentExemptReserve := 2282880
          lockup := some ⟨0, 0, Bytes32.zero⟩
          stage := .active }
      account.staker = some settlement.stakerAuthority ∧
        (account.Withheld config.bondsAuthority ∨
          Sha256.Collision
            [(Derivation.settlementStaker (settlement.address config)).hashed config,
              Derivation.bondsWithdrawer.hashed config]) := by
  intro terms config
  have hcreate : create terms config = .ok _ := rfl
  exact ⟨_, hcreate, rfl, withheld_or_collision hcreate rfl⟩

end Settlement

end Surety
