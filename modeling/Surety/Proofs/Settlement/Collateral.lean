import Surety.Proofs.Address.Separation
import Surety.Proofs.Settlement.Funding
import Surety.Proofs.Stake.Ownership

/-!
# Whose stake funds a settlement

A settlement knows its bond by address.  Whether a stake account may fund it is judged by a bond that is
passed beside it, and planning compares the two with each other nowhere, other than cancelling a request
to withdraw, which refuses another bond than that of the request.  So the account is stake of the bond
that was passed; that this is the bond which the settlement pays for is left to whoever passes it.

* `usable_of_planOffer` says that a plan that uses an account has checked it.
* `Settlement.FundedByOwn` is what should hold of every account that is used.
* `stake_of_planFunding` says when it does, and that the plan does not depend on it.
* `not_fundedByOwn_of_plan` says that it does not always hold.
-/

namespace Surety.Settlement

open Stake (Account)

/-- A plan that uses an account was made after the account was found usable. -/
theorem usable_of_planOffer {s : Settlement} {offer : FundingOffer} {plan : FundingPlan}
    (hplan : s.planOffer offer = .ok plan) (hused : plan ≠ .alreadyFunded) :
    offer.checkUsable = .ok () := by
  by_cases hfunded : s.maxTotalClaim ≤ s.lamportsFunded
  · rw [planOffer_of_funded offer hfunded] at hplan
    exact absurd (Except.ok.inj hplan).symm hused
  · cases husable : offer.checkUsable with
    | error e =>
        rw [planOffer_of_unusable (UInt64.not_le.1 hfunded) husable] at hplan
        cases hplan
    | ok => rfl

/-- An account is delegated to the validator whose bond a settlement pays for. -/
def FundedByOwn (s : Settlement) (config : Config) (account : Account) : Prop :=
  ∃ voteAccount, account.voter = some voteAccount ∧
    (Derivation.bond voteAccount).address config = s.bond

section

variable {s : Settlement} {account : Account} {bond : Bond}
  {bondsAuthority splitRentCollector : Address} {config : Config} {plan : FundingPlan}

/-- Planning does not look at the bond that the settlement pays for. -/
theorem planFunding_with_bond (s : Settlement) (payer : Address) :
    ({ s with bond := payer } : Settlement).planFunding account bond bondsAuthority
        splitRentCollector config
      = s.planFunding account bond bondsAuthority splitRentCollector config := rfl

/-- The account of a plan is active stake of the bond that was passed.  It is stake of the bond that the
settlement pays for just when this is the bond that was passed; then no other bond stands at that
address, or the strings hashed for two vote accounts collide.  The plan itself is the same whichever
bond the settlement pays for. -/
theorem stake_of_planFunding
    (hplan : s.planFunding account bond bondsAuthority splitRentCollector config = .ok plan)
    (hused : plan ≠ .alreadyFunded) :
    (account.isOwnedBy bondsAuthority = true ∧ account.voter = some bond.voteAccount ∧
      account.isLockedUp = false ∧ account.stage = .active) ∧
    (s.FundedByOwn config account ↔ bond.address config = s.bond) ∧
    (bond.address config = s.bond → ∀ other : Bond, other.address config = s.bond →
      account.voter = some other.voteAccount ∨
        Sha256.Collision [(Derivation.bond bond.voteAccount).hashed config,
          (Derivation.bond other.voteAccount).hashed config]) ∧
    ∀ payer, ({ s with bond := payer } : Settlement).planFunding account bond bondsAuthority
      splitRentCollector config = .ok plan := by
  have husable : Stake.checkUsableForFunding account bond.voteAccount bondsAuthority
      config.minimumStake = .ok () :=
    @usable_of_planOffer s ⟨account, bond, bondsAuthority, splitRentCollector, config⟩ plan
      hplan hused
  obtain ⟨howned, hactive, -⟩ := Stake.checkUsableForFunding_eq_ok_iff.1 husable
  obtain ⟨hauthority, hvoter, hlocked⟩ := Stake.checkOwnedByBond_eq_ok_iff.1 howned
  refine ⟨⟨hauthority, hvoter, hlocked, hactive⟩, ?_, ?_, fun payer => ?_⟩
  · constructor
    · rintro ⟨voteAccount, hdelegated, haddress⟩
      obtain rfl : bond.voteAccount = voteAccount := Option.some.inj (hvoter.symm.trans hdelegated)
      exact haddress
    · intro haddress
      exact ⟨bond.voteAccount, hvoter, haddress⟩
  · intro hown other hother
    have hsame : (Derivation.bond bond.voteAccount).address config
        = (Derivation.bond other.voteAccount).address config := hown.trans hother.symm
    rcases Derivation.hashed_eq_or_collision hsame with hstrings | hcollision
    · left
      rw [hvoter, Derivation.bond.inj (Derivation.hashed_injective hstrings).1]
    · exact .inr hcollision
  · rw [planFunding_with_bond, hplan]

end

/-- A bond is passed to the settlement that pays for it, and its stake is split. -/
theorem stake_of_planFunding_for_own_bond :
    let config : Config := ⟨Bytes32.zero, Bytes32.zero, 3, 0, 3, 0⟩
    let bond : Bond := ⟨Bytes32.zero, Bytes32.zero, Bytes32.zero, 0, 0⟩
    let s : Settlement :=
      ⟨bond.address config, Bytes32.zero, Bytes32.zero, 5000, 9, 0, 0, 0, 0, 0, 3, 0, Bytes32.zero,
        none, 0⟩
    let account : Account :=
      ⟨Bytes32.zero, some Bytes32.zero, some Bytes32.zero, some Bytes32.zero, none, none, false,
        false, 2000005014, 0, 7, none, .active⟩
    let plan : FundingPlan :=
      .split Bytes32.zero Bytes32.zero 5000 1000000007 Bytes32.zero 7
    s.planFunding account bond Bytes32.zero Bytes32.zero config = .ok plan ∧
      plan ≠ .alreadyFunded ∧ s.FundedByOwn config account := by
  intro config bond s account plan
  have hplan : s.planFunding account bond Bytes32.zero Bytes32.zero config = .ok plan := by
    decide +kernel
  have hused : plan ≠ .alreadyFunded := by decide
  exact ⟨hplan, hused, (stake_of_planFunding hplan hused).2.1.2 rfl⟩

/-- Not every account that is used is stake of the bond that the settlement pays for: two settlements
that pay for different bonds get the same plan, and the bond that was passed is not both of them. -/
theorem not_fundedByOwn_of_plan :
    ¬∀ (s : Settlement) (account : Account) (bond : Bond) (bondsAuthority splitRentCollector : Address)
        (config : Config) (plan : FundingPlan),
      s.planFunding account bond bondsAuthority splitRentCollector config = .ok plan →
        plan ≠ .alreadyFunded →
          bond.address config = s.bond ∧ account.voter = some bond.voteAccount := by
  intro hclaimed
  let config : Config := ⟨Bytes32.zero, Bytes32.zero, 3, 0, 3, 0⟩
  let bond : Bond := ⟨Bytes32.zero, Bytes32.zero, Bytes32.zero, 0, 0⟩
  let settlement (payer : Address) : Settlement :=
    ⟨payer, Bytes32.zero, Bytes32.zero, 5000, 9, 0, 0, 0, 0, 0, 3, 0, Bytes32.zero, none, 0⟩
  let account : Account :=
    ⟨Bytes32.zero, some Bytes32.zero, some Bytes32.zero, some Bytes32.zero, none, none, false,
      false, 2000005014, 0, 7, none, .active⟩
  let plan : FundingPlan := .split Bytes32.zero Bytes32.zero 5000 1000000007 Bytes32.zero 7
  have hzero : (settlement Bytes32.zero).planFunding account bond Bytes32.zero Bytes32.zero config
      = .ok plan := by
    decide +kernel
  have hplan : ∀ payer, (settlement payer).planFunding account bond Bytes32.zero Bytes32.zero config
      = .ok plan := by
    intro payer
    rw [← hzero]
    exact planFunding_with_bond (settlement Bytes32.zero) payer
  have haddress : ∀ payer, bond.address config = payer := fun payer =>
    (hclaimed (settlement payer) account bond _ _ config plan (hplan payer) (by decide)).1
  have hsame : Bytes32.zero = (⟨List.replicate 32 1, rfl⟩ : Address) :=
    (haddress _).symm.trans (haddress _)
  exact absurd hsame (by decide)

end Surety.Settlement
