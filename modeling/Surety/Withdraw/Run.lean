import Surety.Withdraw.Fulfillment

/-!
# Runs over the withdraw requests of a bond

A bond has at most one request at a time.  Requests are created, planned for, fulfilled and cancelled
in any order; plans are kept and may be applied to whichever request is current.  A refused operation
changes nothing.
-/

namespace Surety

/-- The current request of a bond, if there is one, and the plans made so far. -/
structure WithdrawDesk where
  request : Option WithdrawRequest
  plans : List WithdrawPlan
  deriving DecidableEq

namespace WithdrawDesk

/-- What can be done at a desk. -/
inductive Operation where
  | create (authority : Address) (voteWithdrawer : Option Address) (amount : UInt64) (clock : Clock)
  | place (request : WithdrawRequest)
  | plan (accounts : List Stake.Account) (context : WithdrawContext)
  | apply (plan : WithdrawPlan)
  | cancel (bond : Bond) (authority : Address) (voteWithdrawer : Option Address)

/-- What a successful operation answers. -/
inductive Outcome where
  | created
  | placed
  | planned (plan : WithdrawPlan)
  | applied (withdrawn : UInt64)
  | cancelled (report : CancelReport)
  deriving DecidableEq

/-- Why an operation answers nothing. -/
inductive Refusal where
  | noRequest
  | refused (error : Error)
  deriving DecidableEq

/-- A result at a desk. -/
def orRefused {α : Type} : Result α → Except Refusal α
  | .ok value => .ok value
  | .error e => .error (.refused e)

/-- The current request. -/
def current (desk : WithdrawDesk) : Except Refusal WithdrawRequest :=
  match desk.request with
  | some request => .ok request
  | none => .error .noRequest

/-- The answer of an operation and the desk after it. -/
def perform (bond : Bond) (config : Config) (desk : WithdrawDesk) :
    Operation → Except Refusal (Outcome × WithdrawDesk)
  | .create authority voteWithdrawer amount clock => do
      let request ←
        orRefused (WithdrawRequest.create bond config authority voteWithdrawer amount clock)
      return (.created, { desk with request := some request })
  | .place request => .ok (.placed, { desk with request := some request })
  | .plan accounts context => do
      let request ← desk.current
      let plan ← orRefused (request.plan accounts context)
      return (.planned plan, { desk with plans := desk.plans ++ [plan] })
  | .apply plan => do
      let request ← desk.current
      let request ← orRefused (request.apply plan)
      return (.applied request.withdrawnAmount, { desk with request := some request })
  | .cancel bond authority voteWithdrawer => do
      let request ← desk.current
      let report ← orRefused (request.cancel bond config authority voteWithdrawer)
      return (.cancelled report, { desk with request := none })

/-- The desk after an operation, whether it succeeds or not. -/
def after (bond : Bond) (config : Config) (desk : WithdrawDesk) (operation : Operation) :
    WithdrawDesk :=
  match perform bond config desk operation with
  | .ok (_, desk) => desk
  | .error _ => desk

/-- The desk after a run. -/
def run (bond : Bond) (config : Config) (desk : WithdrawDesk) (operations : List Operation) :
    WithdrawDesk :=
  operations.foldl (after bond config) desk

end WithdrawDesk

end Surety
