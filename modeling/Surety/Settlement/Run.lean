import Surety.Settlement.Claims

/-!
# Runs of a settlement

The operations that change a settlement, one after another.  A refused operation leaves the state as
it is, so a run is a list of operations of which some succeed.  Clients that share a settlement take
turns; what they do together is one run.
-/

namespace Surety

/-- A stake account offered to a settlement, with whom and what it is judged by. -/
structure FundingOffer where
  account : Stake.Account
  bond : Bond
  bondsAuthority : Address
  splitRentCollector : Address
  config : Config
  deriving DecidableEq

namespace Settlement

/-- The plan for an offer. -/
def planOffer (s : Settlement) (offer : FundingOffer) : Result FundingPlan :=
  s.planFunding offer.account offer.bond offer.bondsAuthority offer.splitRentCollector offer.config

/-- Plan for an offer and record the plan. -/
def fund (s : Settlement) (offer : FundingOffer) : Result (FundingPlan × Settlement) :=
  match s.planOffer offer with
  | .error e => .error e
  | .ok plan =>
      match s.recordFunding plan with
      | .error e => .error e
      | .ok s => .ok (plan, s)

end Settlement

namespace Claims

/-- Plan for an offer and record the plan. -/
def fund (claims : Claims) (offer : FundingOffer) : Result (FundingPlan × Claims) :=
  match claims.settlement.planOffer offer with
  | .error e => .error e
  | .ok plan =>
      match claims.recordFunding plan with
      | .error e => .error e
      | .ok claims => .ok (plan, claims)

/-- What can be done to a settlement. -/
inductive Operation where
  | record (plan : FundingPlan)
  | accept (request : ClaimRequest) (clock : Clock)
  | close (clock : Clock)

/-- What a successful operation answers. -/
inductive Outcome where
  | recorded
  | admitted (admission : ClaimAdmission)
  | closed (report : CloseReport)
  deriving DecidableEq

/-- The answer of an operation and the state after it. -/
def perform (claims : Claims) : Operation → Result (Outcome × Claims)
  | .record plan => (claims.recordFunding plan).map fun claims => (.recorded, claims)
  | .accept request clock =>
      (claims.accept request clock).map fun (admission, claims) => (.admitted admission, claims)
  | .close clock => (claims.close clock).map fun (report, claims) => (.closed report, claims)

/-- The state after an operation, whether it succeeds or not. -/
def after (claims : Claims) (operation : Operation) : Claims :=
  match claims.perform operation with
  | .ok (_, claims) => claims
  | .error _ => claims

/-- The state after a run. -/
def run (claims : Claims) (operations : List Operation) : Claims := operations.foldl after claims

/-- The answers of a run. -/
def answers (claims : Claims) : List Operation → List (Result Outcome)
  | [] => []
  | operation :: rest =>
      (claims.perform operation).map (·.1) :: answers (claims.after operation) rest

end Claims

end Surety
