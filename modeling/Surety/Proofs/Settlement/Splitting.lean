import Surety.Proofs.Settlement.Funding
import Surety.Proofs.Stake.Ownership

/-!
# When a stake account is split

An account that is split ends up in two: the one that is assigned keeps its minimal size beside what is
missing of the total, and the one that is split off has to hold a minimal size itself.  So an account is
split just when it holds what is missing and twice its minimal size.  Planning finds this out by a
checked sum, plain differences and a test that is made only above the need; over unbounded numbers it
comes to this one inequality, also on its boundary and where the minimal size was cut off.

* `checkedPlanOffer` is the planning in which every difference may fail; `checkedPlanOffer_eq` says that
  none does.
* `planOffer_eq_error_iff` lists the refusals, `planOffer_notEligible_iff` and `planOffer_overflow_iff`
  say when each of them is given.
* `splitPlan_amounts` and `wholePlan_amounts` account for the lamports of an account.
* `planOffer_of_open` puts them together.
-/

namespace Surety

namespace Stake

variable {account : Account} {voter bondsAuthority : Address} {minStake : UInt64}

/-- An account that cannot fund a settlement is refused by its address. -/
theorem stakeNotEligible_of_checkUsableForFunding {e : Error}
    (h : checkUsableForFunding account voter bondsAuthority minStake = .error e) :
    ∃ reason, e = .stakeNotEligible account.address reason := by
  unfold checkUsableForFunding at h
  cases howned : checkOwnedByBond account voter bondsAuthority with
  | error e' =>
      rw [howned] at h
      cases h
      exact stakeNotEligible_of_checkOwnedByBond howned
  | ok =>
      rw [howned] at h
      dsimp only at h
      split at h
      · exact ⟨_, (Except.error.inj h).symm⟩
      · split at h
        · exact ⟨_, (Except.error.inj h).symm⟩
        · cases h

end Stake

namespace Settlement

/-! ## Planning with every difference checked -/

/-- The plan that takes an account whole, unless the account is below its minimal size. -/
def checkedWholePlan (s : Settlement) (offer : FundingOffer) : Option FundingPlan :=
  (subChecked offer.account.balance offer.minimalSize).map fun lamports =>
    .wholeAccount offer.account.address s.stakerAuthority lamports

/-- The plan for an offer, unless a difference on the way is negative.  What exceeds the need is found
only after the account is known to hold more than is needed. -/
def checkedPlanOffer (s : Settlement) (offer : FundingOffer) : Option (Result FundingPlan) :=
  if s.isFullyFunded then some (.ok .alreadyFunded)
  else
    match offer.checkUsable with
    | .error e => some (.error e)
    | .ok () => do
        let missing ← subChecked s.maxTotalClaim s.lamportsFunded
        match addChecked missing offer.minimalSize with
        | none => some (.error (.arithmeticOverflow .amountNeeded))
        | some needed =>
            if needed < offer.account.balance then do
              let excess ← subChecked offer.account.balance needed
              if Stake.passes
                  (Stake.checkSplittable offer.account excess offer.config.minimumStake) then
                some (.ok (.split offer.account.address s.stakerAuthority missing excess
                  offer.splitRentCollector offer.account.rentExemptReserve))
              else (s.checkedWholePlan offer).map .ok
            else (s.checkedWholePlan offer).map .ok

section

variable {s : Settlement} {offer : FundingOffer}

theorem subChecked_missing (hopen : s.lamportsFunded < s.maxTotalClaim) :
    subChecked s.maxTotalClaim s.lamportsFunded = some s.missing := by
  have hle := UInt64.le_of_lt hopen
  rw [subChecked_of_le hle, missing, subSaturating, if_pos hle]

theorem checkedWholePlan_of_usable (husable : offer.checkUsable = .ok ()) :
    s.checkedWholePlan offer = some (s.wholePlan offer) := by
  have hholds : offer.minimalSize ≤ offer.account.balance :=
    UInt64.le_iff_toNat_le.2 (FundingOffer.minimalSize_le_balance husable)
  rw [checkedWholePlan, subChecked_of_le hholds]
  rfl

/-- No difference is negative while a plan is made. -/
theorem checkedPlanOffer_eq (s : Settlement) (offer : FundingOffer) :
    s.checkedPlanOffer offer = some (s.planOffer offer) := by
  unfold checkedPlanOffer
  by_cases hfunded : s.maxTotalClaim ≤ s.lamportsFunded
  · rw [planOffer_of_funded offer hfunded, if_pos (isFullyFunded_iff.2 hfunded)]
  · have hopen := UInt64.not_le.1 hfunded
    rw [if_neg (mt isFullyFunded_iff.1 hfunded)]
    cases husable : offer.checkUsable with
    | error e => rw [planOffer_of_unusable hopen husable]
    | ok =>
        rw [planOffer_of_usable hopen husable, subChecked_missing hopen]
        dsimp only [Option.bind_eq_bind, Option.bind_some]
        cases hsum : addChecked s.missing offer.minimalSize with
        | none => rw [if_pos (addChecked_eq_none_iff.1 hsum)]
        | some needed =>
            have hneeded := addChecked_eq_some_iff.1 hsum
            have hwithin : ¬2 ^ 64 ≤ s.missing.toNat + offer.minimalSize.toNat := by
              have hlt := needed.toNat_lt
              omega
            have hsplits := FundingOffer.splits_iff hneeded
            have hwhole := @checkedWholePlan_of_usable s offer husable
            rw [if_neg hwithin]
            dsimp only
            -- the test for a split is made only where the first difference is not negative
            by_cases hless : needed < offer.account.balance
            · rw [if_pos hless, subChecked_of_le (UInt64.le_of_lt hless)]
              dsimp only [Option.bind_some]
              by_cases hpasses : Stake.passes (Stake.checkSplittable offer.account
                  (offer.account.balance - needed) offer.config.minimumStake) = true
              · rw [if_pos hpasses, if_pos (hsplits.1 ⟨hless, hpasses⟩), splitPlan,
                  eq_add_of_addChecked hsum]
              · rw [if_neg hpasses, if_neg fun hcovers => hpasses (hsplits.2 hcovers).2, hwhole]
                rfl
            · rw [if_neg hless, if_neg fun hcovers => hless (hsplits.2 hcovers).1, hwhole]
              rfl

/-! ## Which answer is given -/

/-- Planning for an open settlement passes a refusal of the account on, and otherwise fails only where
what is needed leaves 64 bits. -/
theorem planOffer_eq_error_iff {e : Error} (hopen : s.lamportsFunded < s.maxTotalClaim) :
    s.planOffer offer = .error e ↔
      offer.checkUsable = .error e ∨
        offer.checkUsable = .ok () ∧ 2 ^ 64 ≤ s.missing.toNat + offer.minimalSize.toNat ∧
          e = .arithmeticOverflow .amountNeeded := by
  cases husable : offer.checkUsable with
  | error e' => simp [planOffer_of_unusable hopen husable]
  | ok =>
      rw [planOffer_of_usable hopen husable]
      by_cases hover : 2 ^ 64 ≤ s.missing.toNat + offer.minimalSize.toNat
      · rw [if_pos hover]
        constructor
        · intro h
          cases h
          exact .inr ⟨rfl, hover, rfl⟩
        · rintro (h | ⟨-, -, rfl⟩)
          · cases h
          · rfl
      · rw [if_neg hover]
        constructor
        · intro h
          split at h <;> cases h
        · rintro (h | ⟨-, h, -⟩)
          · cases h
          · exact absurd h hover

/-- Planning refuses the account when, and only when, the check of the account refuses it. -/
theorem planOffer_notEligible_iff (hopen : s.lamportsFunded < s.maxTotalClaim) :
    (∃ address reason, s.planOffer offer = .error (.stakeNotEligible address reason)) ↔
      offer.checkUsable ≠ .ok () := by
  constructor
  · rintro ⟨address, reason, hrefused⟩ husable
    rcases (planOffer_eq_error_iff hopen).1 hrefused with h | ⟨-, -, h⟩
    · rw [husable] at h
      cases h
    · cases h
  · intro hunusable
    cases hcheck : offer.checkUsable with
    | ok => exact absurd hcheck hunusable
    | error e =>
        obtain ⟨reason, rfl⟩ := Stake.stakeNotEligible_of_checkUsableForFunding hcheck
        exact ⟨_, reason, planOffer_of_unusable hopen hcheck⟩

theorem planOffer_overflow_iff (hopen : s.lamportsFunded < s.maxTotalClaim) :
    s.planOffer offer = .error (.arithmeticOverflow .amountNeeded) ↔
      offer.checkUsable = .ok () ∧ 2 ^ 64 ≤ s.missing.toNat + offer.minimalSize.toNat := by
  rw [planOffer_eq_error_iff hopen]
  constructor
  · rintro (h | ⟨husable, hover, -⟩)
    · -- the check of an account adds nothing, so it cannot be what overflows
      obtain ⟨reason, h⟩ := Stake.stakeNotEligible_of_checkUsableForFunding h
      cases h
    · exact ⟨husable, hover⟩
  · rintro ⟨husable, hover⟩
    exact .inr ⟨husable, hover, rfl⟩

/-! ## Where the lamports go -/

/-- A split takes what is missing, and what is split off exceeds the need. -/
theorem splitPlan_amounts
    (hcovers : s.missing.toNat + 2 * offer.minimalSize.toNat ≤ offer.account.balance.toNat) :
    ∃ excess,
      s.splitPlan offer = .split offer.account.address s.stakerAuthority s.missing excess
        offer.splitRentCollector offer.account.rentExemptReserve ∧
      excess.toNat + s.missing.toNat + offer.minimalSize.toNat = offer.account.balance.toNat := by
  have hlt := offer.account.balance.toNat_lt
  have hneeded : (s.missing + offer.minimalSize).toNat
      = s.missing.toNat + offer.minimalSize.toNat := toNat_add_of_lt (by omega)
  refine ⟨_, rfl, ?_⟩
  rw [UInt64.toNat_sub_of_le _ _ (UInt64.le_iff_toNat_le.2 (by omega)), hneeded]
  omega

/-- An account that is taken whole gives all above its minimal size. -/
theorem wholePlan_amounts (husable : offer.checkUsable = .ok ()) :
    ∃ lamports,
      s.wholePlan offer = .wholeAccount offer.account.address s.stakerAuthority lamports ∧
      lamports.toNat + offer.minimalSize.toNat = offer.account.balance.toNat := by
  have hholds := FundingOffer.minimalSize_le_balance husable
  refine ⟨_, rfl, ?_⟩
  rw [UInt64.toNat_sub_of_le _ _ (UInt64.le_iff_toNat_le.2 hholds)]
  omega

/-- The plan for an account that is offered to an open settlement.  No difference on the way is
negative.  The account is refused when it is not usable, and what is needed may leave 64 bits; apart
from that the account is split when it holds what is missing and twice its minimal size, and taken whole
when it does not.  The parts of a split are both of the minimal size and add up to the balance; an
account that is taken whole keeps its minimal size, and gives less than that beyond the total. -/
theorem planOffer_of_open (hopen : s.isFullyFunded = false) (offer : FundingOffer) :
    let missing := s.maxTotalClaim.toNat - s.lamportsFunded.toNat
    let minimal := (Stake.minimalSize offer.account.rentExemptReserve
      offer.config.configuredMinimum).toNat
    let balance := offer.account.balance.toNat
    s.checkedPlanOffer offer = some (s.planOffer offer) ∧
    (∀ e, offer.checkUsable = .error e → s.planOffer offer = .error e) ∧
    ((∃ address reason, s.planOffer offer = .error (.stakeNotEligible address reason)) ↔
      offer.checkUsable ≠ .ok ()) ∧
    (s.planOffer offer = .error (.arithmeticOverflow .amountNeeded) ↔
      offer.checkUsable = .ok () ∧ 2 ^ 64 ≤ missing + minimal) ∧
    (offer.checkUsable = .ok () → missing + minimal < 2 ^ 64 → missing + 2 * minimal ≤ balance →
      ∃ lamports excess,
        s.planOffer offer = .ok (.split offer.account.address s.stakerAuthority lamports excess
          offer.splitRentCollector offer.account.rentExemptReserve) ∧
        lamports.toNat = missing ∧ minimal ≤ excess.toNat ∧ minimal ≤ balance - excess.toNat ∧
        excess.toNat + lamports.toNat + minimal = balance) ∧
    (offer.checkUsable = .ok () → missing + minimal < 2 ^ 64 → balance < missing + 2 * minimal →
      ∃ lamports,
        s.planOffer offer
          = .ok (.wholeAccount offer.account.address s.stakerAuthority lamports) ∧
        lamports.toNat + minimal = balance ∧
        s.lamportsFunded.toNat + lamports.toNat < s.maxTotalClaim.toNat + minimal) := by
  intro missing minimal balance
  have hless : s.lamportsFunded < s.maxTotalClaim :=
    UInt64.not_le.1 (mt isFullyFunded_iff.2 (by simp [hopen]))
  have hsum := missing_toNat hless
  have hmissing : s.missing.toNat = missing := subSaturating_toNat _ _
  have hminimal : offer.minimalSize.toNat = minimal := by
    rw [FundingOffer.minimalSize, Stake.minimalSize_minimumStake]
  have hplanned := @planOffer_of_usable s offer hless
  have hover := @planOffer_overflow_iff s offer hless
  rw [hmissing, hminimal] at hplanned hover
  refine ⟨checkedPlanOffer_eq s offer, fun e => planOffer_of_unusable hless,
    planOffer_notEligible_iff hless, hover, ?_, ?_⟩
  · intro husable hfits hcovers
    obtain ⟨excess, hplan, hamounts⟩ := @splitPlan_amounts s offer (by omega)
    rw [hplanned husable, if_neg (Nat.not_le.2 hfits), if_pos hcovers, hplan]
    refine ⟨s.missing, excess, rfl, hmissing, ?_, ?_, ?_⟩ <;> omega
  · intro husable hfits hshort
    obtain ⟨lamports, hplan, hamounts⟩ := @wholePlan_amounts s offer husable
    rw [hplanned husable, if_neg (Nat.not_le.2 hfits), if_neg (Nat.not_le.2 hshort), hplan]
    refine ⟨lamports, rfl, ?_, ?_⟩ <;> omega

/-- An account on the boundary is split, and one with a lamport less is taken whole. -/
theorem planOffer_at_boundary :
    let s : Settlement :=
      ⟨Bytes32.zero, Bytes32.zero, Bytes32.zero, 5000, 9, 0, 0, 0, 0, 0, 3, 0, Bytes32.zero,
        none, 0⟩
    let offer (balance : UInt64) : FundingOffer :=
      ⟨⟨Bytes32.zero, some Bytes32.zero, some Bytes32.zero, some Bytes32.zero, none, none, false,
        false, balance, 0, 7, none, .active⟩, ⟨Bytes32.zero, Bytes32.zero, Bytes32.zero, 0, 0⟩,
        Bytes32.zero, Bytes32.zero, ⟨Bytes32.zero, Bytes32.zero, 3, 0, 3, 0⟩⟩
    s.isFullyFunded = false ∧
    s.planOffer (offer 2000005014)
      = .ok (.split Bytes32.zero Bytes32.zero 5000 1000000007 Bytes32.zero 7) ∧
    s.planOffer (offer 2000005013) = .ok (.wholeAccount Bytes32.zero Bytes32.zero 1000005006) := by
  intro s offer
  have hopen : s.isFullyFunded = false := by decide
  have hsize : (Stake.minimalSize 7 0).toNat = 1000000007 := by decide +kernel
  refine ⟨hopen, ?_, ?_⟩
  · obtain ⟨-, -, -, -, hsplit, -⟩ := planOffer_of_open hopen (offer 2000005014)
    obtain ⟨lamports, excess, hplan, hlamports, -, -, hsum⟩ :=
      hsplit (by decide +kernel) (by decide +kernel) (by decide +kernel)
    change lamports.toNat = 5000 at hlamports
    change excess.toNat + lamports.toNat + (Stake.minimalSize 7 0).toNat = 2000005014 at hsum
    obtain rfl : lamports = 5000 := UInt64.toNat_inj.1 hlamports
    obtain rfl : excess = 1000000007 := UInt64.toNat_inj.1 (by change _ = 1000000007; omega)
    exact hplan
  · obtain ⟨-, -, -, -, -, hwhole⟩ := planOffer_of_open hopen (offer 2000005013)
    obtain ⟨lamports, hplan, hsum, -⟩ :=
      hwhole (by decide +kernel) (by decide +kernel) (by decide +kernel)
    change lamports.toNat + (Stake.minimalSize 7 0).toNat = 2000005013 at hsum
    obtain rfl : lamports = 1000005006 := UInt64.toNat_inj.1 (by change _ = 1000005006; omega)
    exact hplan

end

end Settlement

end Surety
