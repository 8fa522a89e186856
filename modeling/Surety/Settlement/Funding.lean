import Surety.Bond
import Surety.Settlement.Basic
import Surety.Stake.Suitability

/-!
# Funding settlements

A stake account of the bond is assigned to a settlement.  What it holds above the needed amount is
split off when it can stand as a stake account of its own; otherwise the whole account is assigned
and the settlement may become over-funded.  The assigned account keeps its minimal size, so only the
lamports above count as funded.
-/

namespace Surety

/-- How a stake account is used to fund a settlement. -/
inductive FundingPlan where
  /-- nothing is needed, the stake account stays untouched -/
  | alreadyFunded
  | wholeAccount (stakeAccount stakerAuthority : Address) (lamports : UInt64)
  /-- `splitLamports` stay in the bond, the rest is assigned -/
  | split (stakeAccount stakerAuthority : Address) (lamports splitLamports : UInt64)
      (splitRentCollector : Address) (splitRentAmount : UInt64)
  deriving DecidableEq

/-- The lamports that a plan adds to the funding. -/
def FundingPlan.lamports : FundingPlan → UInt64
  | .alreadyFunded => 0
  | .wholeAccount _ _ lamports => lamports
  | .split _ _ lamports _ _ _ => lamports

namespace Settlement

/-- Apply a plan to the counters. -/
def recordFunding (s : Settlement) (plan : FundingPlan) : Result Settlement :=
  match addChecked s.lamportsFunded plan.lamports with
  | none => .error (.arithmeticOverflow .lamportsFunded)
  | some funded =>
      match plan with
      | .split _ _ _ _ collector amount =>
          .ok { s with
            lamportsFunded := funded
            splitRentCollector := some collector
            splitRentAmount := amount }
      | _ => .ok { s with lamportsFunded := funded }

/-- How a stake account funds what is missing. -/
def planFunding (s : Settlement) (account : Stake.Account) (bond : Bond)
    (bondsAuthority splitRentCollector : Address) (config : Config) : Result FundingPlan :=
  if s.isFullyFunded then .ok .alreadyFunded
  else
    let minStake := config.minimumStake
    match Stake.checkUsableForFunding account bond.voteAccount bondsAuthority minStake with
    | .error e => .error e
    | .ok () =>
        let minimal := Stake.minimalSize account.rentExemptReserve minStake
        let available := account.balance
        let remaining := subSaturating s.maxTotalClaim s.lamportsFunded
        match addChecked remaining minimal with
        | none => .error (.arithmeticOverflow .amountNeeded)
        | some needed =>
            if needed < available
                ∧ Stake.passes (Stake.checkSplittable account (available - needed) minStake) then
              .ok (.split account.address s.stakerAuthority remaining (available - needed)
                splitRentCollector account.rentExemptReserve)
            else
              .ok (.wholeAccount account.address s.stakerAuthority (available - minimal))

end Settlement

end Surety
