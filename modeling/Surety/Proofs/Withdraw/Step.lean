import Mathlib.Tactic.Common
import Surety.Withdraw.Run

/-!
# What an operation on a withdraw request does

A plan is accepted under five conditions and then raises the withdrawn amount of the request by its
total; nothing else of a request ever changes.  `WithdrawDesk.Step` lists the five ways in which an
operation at the desk can succeed, and `perform_eq_ok_iff` says that these are all.

* `plan_eq` opens the checks of a plan in their order.
* `apply_eq_ok_iff` has the conditions of an accepted plan, without wrapping.
* `apply_of_outdated` says which plans are taken for fulfilled.
* `run_applications` reads a run that only applies plans as a fold over the request.
-/

namespace Surety

namespace WithdrawRequest

/-! ## Creating and cancelling a request -/

theorem create_eq_ok {bond : Bond} {config : Config} {authority : Address}
    {voteWithdrawer : Option Address} {amount : UInt64} {clock : Clock} {request : WithdrawRequest}
    (h : create bond config authority voteWithdrawer amount clock = .ok request) :
    request.voteAccount = bond.voteAccount ∧ request.bond = bond.address config ∧
      request.epoch = clock.epoch ∧ request.createdAtSlot = clock.slot ∧
      request.requestedAmount = amount ∧ request.withdrawnAmount = 0 := by
  unfold create at h
  split at h
  · cases h
  · split at h
    · cases h
    · cases h
      exact ⟨rfl, rfl, rfl, rfl, rfl, rfl⟩

/-- The authority of a bond can request any positive amount. -/
theorem exists_create (bond : Bond) (config : Config) (voteWithdrawer : Option Address)
    {amount : UInt64} (hamount : amount ≠ 0) (clock : Clock) :
    ∃ request, create bond config bond.authority voteWithdrawer amount clock = .ok request := by
  have hpermitted : bond.checkChange config bond.authority voteWithdrawer = .ok () := by
    rw [Bond.checkChange, if_pos (by simp [Bond.permitsChange])]
  unfold create
  rw [hpermitted]
  simp only
  rw [if_neg hamount]
  exact ⟨_, rfl⟩

/-- The authority of a bond can cancel a request of the bond. -/
theorem exists_cancel {request : WithdrawRequest} {bond : Bond} (config : Config)
    (voteWithdrawer : Option Address) (hbond : request.bond = bond.address config) :
    ∃ report, request.cancel bond config bond.authority voteWithdrawer = .ok report := by
  have hpermitted : bond.checkChange config bond.authority voteWithdrawer = .ok () := by
    rw [Bond.checkChange, if_pos (by simp [Bond.permitsChange])]
  unfold cancel
  rw [hpermitted]
  simp only
  rw [if_neg (not_not.2 hbond.symm)]
  exact ⟨_, rfl⟩

/-! ## Progress of a request -/

theorem isFulfilled_eq_false_iff {request : WithdrawRequest} :
    request.isFulfilled = false ↔ request.withdrawnAmount < request.requestedAmount := by
  have hremaining := subSaturating_toNat request.requestedAmount request.withdrawnAmount
  rw [isFulfilled, decide_eq_false_iff_not, ← UInt64.toNat_inj, remaining, hremaining,
    UInt64.lt_iff_toNat_lt]
  simp only [UInt64.toNat_zero]
  omega

theorem bond_of_isPlannedBy {request : WithdrawRequest} {plan : WithdrawPlan}
    (h : request.isPlannedBy plan = true) : plan.bond = request.bond := by
  simp only [isPlannedBy, Bool.and_eq_true, decide_eq_true_eq] at h
  exact h.1.1.1

/-! ## Making a plan -/

/-- The plan for a request in its present progress. -/
def planOf (request : WithdrawRequest) (context : WithdrawContext) (steps : List WithdrawStep)
    (total : UInt64) : WithdrawPlan where
  withdrawRequest := request.address context.config
  bond := request.bond
  requestEpoch := request.epoch
  requestCreatedAtSlot := request.createdAtSlot
  requestedAmount := request.requestedAmount
  withdrawnBefore := request.withdrawnAmount
  steps := steps
  totalAmount := total
  newStaker := context.newStaker
  newWithdrawer := context.newWithdrawer

/-- The checks and the selection of a plan, one after another. -/
theorem plan_eq (request : WithdrawRequest) (accounts : List Stake.Account)
    (context : WithdrawContext) :
    request.plan accounts context =
      match request.checkLockup context.config context.clock with
      | .error e => .error e
      | .ok () =>
          if request.remaining = 0 then .error request.alreadyFulfilled
          else if (request.eligible context.bondsAuthority accounts).isEmpty then
            .error (request.noneEligible context.bondsAuthority accounts)
          else
            match selectSteps request.remaining context.config.minimumStake
              (request.eligible context.bondsAuthority accounts) with
            | .error e => .error e
            | .ok (steps, total) => .ok (request.planOf context steps total) := by
  unfold plan
  cases request.checkLockup context.config context.clock with
  | error e => rfl
  | ok =>
      dsimp only [bind, Except.bind]
      by_cases hremaining : request.remaining = 0
      · rw [if_pos hremaining, if_pos hremaining]
        rfl
      · rw [if_neg hremaining, if_neg hremaining]
        by_cases hnone : (request.eligible context.bondsAuthority accounts).isEmpty = true
        · rw [if_pos hnone, if_pos hnone]
          rfl
        · rw [if_neg hnone, if_neg hnone]
          cases selectSteps request.remaining context.config.minimumStake
            (request.eligible context.bondsAuthority accounts) with
          | error e => rfl
          | ok selection => rfl

/-! ## Applying a plan -/

theorem apply_eq_ok_iff {request next : WithdrawRequest} {plan : WithdrawPlan} :
    request.apply plan = .ok next ↔
      request.isPlannedBy plan = true ∧ plan.withdrawnBefore = request.withdrawnAmount ∧
        request.withdrawnAmount < request.requestedAmount ∧
        request.withdrawnAmount.toNat + plan.totalAmount.toNat = next.withdrawnAmount.toNat ∧
        next.withdrawnAmount ≤ request.requestedAmount ∧
        next = { request with withdrawnAmount := next.withdrawnAmount } := by
  constructor
  · -- refused in this order: other bond, other request, outdated, beyond 64 bits, too much
    intro h
    unfold apply at h
    split at h
    · cases h
    · split at h
      · cases h
      · rename_i hplanned
        split at h
        · cases h
        · rename_i hcurrent
          split at h
          · cases h
          · rename_i withdrawn hsum
            split at h
            · cases h
            · rename_i hwithin
              cases h
              rw [not_or, Bool.not_eq_true, isFulfilled_eq_false_iff, not_not] at hcurrent
              exact ⟨by simpa using hplanned, hcurrent.2, hcurrent.1,
                addChecked_eq_some_iff.1 hsum, UInt64.not_lt.1 hwithin, rfl⟩
  · rintro ⟨hplanned, hbefore, hmissing, hsum, hwithin, hnext⟩
    -- the bond is compared twice, first alone and then as a part of the identity
    have hopen : ¬(request.isFulfilled = true ∨ plan.withdrawnBefore ≠ request.withdrawnAmount) := by
      rw [not_or, Bool.not_eq_true, isFulfilled_eq_false_iff, not_not]
      exact ⟨hmissing, hbefore⟩
    unfold apply
    rw [if_neg (not_not.2 (bond_of_isPlannedBy hplanned)), if_neg (by simp [hplanned]),
      if_neg hopen, addChecked_eq_some_iff.2 hsum]
    simp only
    rw [if_neg (UInt64.not_lt.2 hwithin), ← hnext]

/-- A plan for another request of the bond or for an earlier progress is taken for fulfilled. -/
theorem apply_of_outdated {request : WithdrawRequest} {plan : WithdrawPlan}
    (hbond : plan.bond = request.bond)
    (houtdated : request.isPlannedBy plan = true → request.isFulfilled = true ∨
      plan.withdrawnBefore ≠ request.withdrawnAmount) :
    request.apply plan = .error request.alreadyFulfilled := by
  unfold apply
  rw [if_neg (not_not.2 hbond)]
  by_cases hplanned : request.isPlannedBy plan = true
  · rw [if_neg (by simp [hplanned]), if_pos (houtdated hplanned)]
  · rw [if_pos (by simp [hplanned])]

/-- The request after a plan was submitted to it, accepted or not. -/
def afterPlan (request : WithdrawRequest) (plan : WithdrawPlan) : WithdrawRequest :=
  match request.apply plan with
  | .ok next => next
  | .error _ => request

theorem afterPlan_of_ok {request next : WithdrawRequest} {plan : WithdrawPlan}
    (h : request.apply plan = .ok next) : request.afterPlan plan = next := by
  rw [afterPlan, h]

theorem afterPlan_of_error {request : WithdrawRequest} {plan : WithdrawPlan} {e : Error}
    (h : request.apply plan = .error e) : request.afterPlan plan = request := by
  rw [afterPlan, h]

/-- The request after plans were submitted to it one after another. -/
def afterPlans (request : WithdrawRequest) (plans : List WithdrawPlan) : WithdrawRequest :=
  plans.foldl afterPlan request

end WithdrawRequest

namespace WithdrawDesk

/-! ## Steps -/

/-- What a successful operation checks, what it answers and the desk after it. -/
inductive Step (bond : Bond) (config : Config) (desk : WithdrawDesk) :
    Operation → Outcome → WithdrawDesk → Prop
  | create {authority : Address} {voteWithdrawer : Option Address} {amount : UInt64}
      {clock : Clock} {request : WithdrawRequest}
      (hcreate : WithdrawRequest.create bond config authority voteWithdrawer amount clock
        = .ok request) :
      Step bond config desk (.create authority voteWithdrawer amount clock) .created
        { desk with request := some request }
  | place {request : WithdrawRequest} :
      Step bond config desk (.place request) .placed { desk with request := some request }
  | plan {request : WithdrawRequest} {accounts : List Stake.Account} {context : WithdrawContext}
      {plan : WithdrawPlan} (hcurrent : desk.request = some request)
      (hplan : request.plan accounts context = .ok plan) :
      Step bond config desk (.plan accounts context) (.planned plan)
        { desk with plans := desk.plans ++ [plan] }
  | apply {request next : WithdrawRequest} {plan : WithdrawPlan}
      (hcurrent : desk.request = some request) (happly : request.apply plan = .ok next) :
      Step bond config desk (.apply plan) (.applied next.withdrawnAmount)
        { desk with request := some next }
  | cancel {request : WithdrawRequest} {other : Bond} {authority : Address}
      {voteWithdrawer : Option Address} {report : CancelReport}
      (hcurrent : desk.request = some request)
      (hcancel : request.cancel other config authority voteWithdrawer = .ok report) :
      Step bond config desk (.cancel other authority voteWithdrawer) (.cancelled report)
        { desk with request := none }

section

variable {bond : Bond} {config : Config} {desk next : WithdrawDesk} {operation : Operation}
  {outcome : Outcome}

/-- An operation succeeds in the ways that `Step` lists and in no other. -/
theorem perform_eq_ok_iff :
    perform bond config desk operation = .ok (outcome, next) ↔
      Step bond config desk operation outcome next := by
  constructor
  · intro h
    cases operation with
    | create authority voteWithdrawer amount clock =>
        cases hcreate : WithdrawRequest.create bond config authority voteWithdrawer amount clock with
        | error e => simp [perform, hcreate, orRefused, bind, Except.bind] at h
        | ok request =>
            rw [perform, hcreate] at h
            cases h
            exact .create hcreate
    | place request =>
        cases h
        exact .place
    | plan accounts context =>
        cases hcurrent : desk.request with
        | none => simp [perform, current, hcurrent, bind, Except.bind] at h
        | some request =>
            rw [perform, current, hcurrent] at h
            cases hplan : request.plan accounts context with
            | error e => simp [hplan, orRefused, bind, Except.bind] at h
            | ok plan =>
                simp only [hplan, orRefused, bind, Except.bind] at h
                cases h
                rw [← hcurrent]
                exact .plan hcurrent hplan
    | apply plan =>
        cases hcurrent : desk.request with
        | none => simp [perform, current, hcurrent, bind, Except.bind] at h
        | some request =>
            rw [perform, current, hcurrent] at h
            cases happly : request.apply plan with
            | error e => simp [happly, orRefused, bind, Except.bind] at h
            | ok advanced =>
                simp only [happly, orRefused, bind, Except.bind] at h
                cases h
                exact .apply hcurrent happly
    | cancel other authority voteWithdrawer =>
        cases hcurrent : desk.request with
        | none => simp [perform, current, hcurrent, bind, Except.bind] at h
        | some request =>
            rw [perform, current, hcurrent] at h
            cases hcancel : request.cancel other config authority voteWithdrawer with
            | error e => simp [hcancel, orRefused, bind, Except.bind] at h
            | ok report =>
                simp only [hcancel, orRefused, bind, Except.bind] at h
                cases h
                exact .cancel hcurrent hcancel
  · intro h
    cases h with
    | create hcreate =>
        rw [perform, hcreate]
        rfl
    | place => rfl
    | plan hcurrent hplan =>
        rw [perform, current, hcurrent]
        simp only [hplan, orRefused, bind, Except.bind]
        rfl
    | apply hcurrent happly =>
        rw [perform, current, hcurrent]
        simp only [happly, orRefused, bind, Except.bind]
        rfl
    | cancel hcurrent hcancel =>
        rw [perform, current, hcurrent]
        simp only [hcancel, orRefused, bind, Except.bind]
        rfl

theorem after_of_step (h : Step bond config desk operation outcome next) :
    after bond config desk operation = next := by
  rw [after, perform_eq_ok_iff.2 h]

/-- An operation is refused and changes nothing, or it takes one of the steps. -/
theorem perform_cases (bond : Bond) (config : Config) (desk : WithdrawDesk)
    (operation : Operation) :
    (∃ refusal, perform bond config desk operation = .error refusal ∧
      after bond config desk operation = desk) ∨
    ∃ outcome next, perform bond config desk operation = .ok (outcome, next) ∧
      after bond config desk operation = next ∧ Step bond config desk operation outcome next := by
  cases hresult : perform bond config desk operation with
  | error refusal => exact .inl ⟨refusal, rfl, by rw [after, hresult]⟩
  | ok pair =>
      obtain ⟨outcome, next⟩ := pair
      have hstep := perform_eq_ok_iff.1 hresult
      exact .inr ⟨outcome, next, rfl, after_of_step hstep, hstep⟩

theorem perform_apply_of_error {request : WithdrawRequest} {plan : WithdrawPlan} {e : Error}
    (hcurrent : desk.request = some request) (happly : request.apply plan = .error e) :
    perform bond config desk (.apply plan) = .error (.refused e) := by
  rw [perform, current, hcurrent]
  simp only [happly, orRefused, bind, Except.bind]

theorem perform_apply_eq_ok_iff {plan : WithdrawPlan} :
    perform bond config desk (.apply plan) = .ok (outcome, next) ↔
      ∃ request advanced, desk.request = some request ∧ request.apply plan = .ok advanced ∧
        outcome = .applied advanced.withdrawnAmount ∧
        next = { desk with request := some advanced } := by
  rw [perform_eq_ok_iff]
  constructor
  · intro h
    cases h with
    | apply hcurrent happly => exact ⟨_, _, hcurrent, happly, rfl, rfl⟩
  · rintro ⟨request, advanced, hcurrent, happly, rfl, rfl⟩
    exact .apply hcurrent happly

/-- Applying a plan at the desk submits it to the current request. -/
theorem after_apply {request : WithdrawRequest} (hcurrent : desk.request = some request)
    (plan : WithdrawPlan) :
    after bond config desk (.apply plan)
      = { desk with request := some (request.afterPlan plan) } := by
  cases happly : request.apply plan with
  | error e =>
      rw [WithdrawRequest.afterPlan_of_error happly, ← hcurrent, after,
        perform_apply_of_error hcurrent happly]
  | ok advanced =>
      rw [WithdrawRequest.afterPlan_of_ok happly]
      exact after_of_step (.apply hcurrent happly)

/-- A run that only applies plans submits them to the current request one after another. -/
theorem run_applications {request : WithdrawRequest} (hcurrent : desk.request = some request)
    (plans : List WithdrawPlan) :
    run bond config desk (plans.map .apply)
      = { desk with request := some (request.afterPlans plans) } := by
  induction plans generalizing desk request with
  | nil =>
      change desk = { desk with request := some request }
      rw [← hcurrent]
  | cons plan rest ih =>
      have hafter : after bond config desk (.apply plan)
          = { desk with request := some (request.afterPlan plan) } := after_apply hcurrent plan
      change run bond config (after bond config desk (.apply plan)) (rest.map .apply) = _
      rw [hafter, ih rfl]
      rfl

end

end WithdrawDesk

end Surety
