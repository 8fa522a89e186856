import Mathlib.Algebra.GroupWithZero.Nat
import Surety.Proofs.Update
import Surety.Proofs.Withdraw.Step

/-!
# The withdrawn amount of a request

Whatever plans are submitted to a new request, in whatever order and for whichever request they were
made: the withdrawn amount is the exact sum of the accepted ones, never falls, and stays within the
requested amount, and nothing else of the request changes.  What a cancellation reports as left is
therefore a true difference, although it is computed by a subtraction that stops at zero.

* `applyInPlace` writes to the request where `apply` answers a new one; `exec_applyInPlace` says that
  it is a transaction.
* `withdrawn_afterPlans` is the sum, from any request on.
* `withdrawn_le_requested` needs only that the request was within its amount before.
* `progress_of_request` is the result for a new request.
-/

namespace Surety.WithdrawRequest

/-- The plans that are accepted when plans are submitted one after another. -/
def acceptedPlans : WithdrawRequest → List WithdrawPlan → List WithdrawPlan
  | _, [] => []
  | request, plan :: rest =>
      match request.apply plan with
      | .ok next => plan :: next.acceptedPlans rest
      | .error _ => request.acceptedPlans rest

/-! ## A plan applied in place -/

/-- Check a plan against the request, write the withdrawn amount and answer it. -/
def applyInPlace (plan : WithdrawPlan) : Update WithdrawRequest UInt64 := do
  let request ← get
  if plan.bond ≠ request.bond then
    throw (.invalidWithdrawRequest (.planForBond plan.bond request.bond))
  if !request.isPlannedBy plan then
    throw request.alreadyFulfilled
  if request.isFulfilled ∨ plan.withdrawnBefore ≠ request.withdrawnAmount then
    throw request.alreadyFulfilled
  let sum := addChecked request.withdrawnAmount plan.totalAmount
  let withdrawn ← Update.orThrow sum (.arithmeticOverflow .withdrawnAmount)
  if request.requestedAmount < withdrawn then
    throw (.invalidWithdrawRequest (.exceedsRemaining plan.totalAmount request.remaining))
  modify fun request => { request with withdrawnAmount := withdrawn }
  return withdrawn

/-- Applying in place is a transaction: it answers the new withdrawn amount, and a refused plan has
written nothing. -/
theorem exec_applyInPlace (request : WithdrawRequest) (plan : WithdrawPlan) :
    (applyInPlace plan).exec request = Update.commit request
      ((request.apply plan).map fun next => (next.withdrawnAmount, next)) := by
  unfold applyInPlace apply
  simp only [Update.exec_bind, Update.exec_get]
  split
  · rfl
  · split
    · rfl
    · split
      · rfl
      · cases addChecked request.withdrawnAmount plan.totalAmount with
        | none => rfl
        | some withdrawn =>
            simp only [Update.exec_bind, Update.exec_orThrow, Option.elim_some]
            split <;> rfl

/-- Whether accepted or not, a plan leaves the same request when it is applied in place. -/
theorem exec_applyInPlace_snd (request : WithdrawRequest) (plan : WithdrawPlan) :
    ((applyInPlace plan).exec request).2 = request.afterPlan plan := by
  rw [exec_applyInPlace, afterPlan]
  cases request.apply plan <;> rfl

/-! ## One plan -/

/-- A plan is refused and changes nothing, or its total is added to the withdrawn amount. -/
theorem afterPlan_cases (request : WithdrawRequest) (plan : WithdrawPlan) :
    (∃ e, request.apply plan = .error e ∧ request.afterPlan plan = request) ∨
    ∃ next, request.apply plan = .ok next ∧ request.afterPlan plan = next ∧
      request.withdrawnAmount.toNat + plan.totalAmount.toNat = next.withdrawnAmount.toNat ∧
      next.withdrawnAmount ≤ request.requestedAmount ∧
      next = { request with withdrawnAmount := next.withdrawnAmount } := by
  cases happly : request.apply plan with
  | error e => exact .inl ⟨e, rfl, afterPlan_of_error happly⟩
  | ok next =>
      obtain ⟨-, -, -, hsum, hwithin, hnext⟩ := apply_eq_ok_iff.1 happly
      exact .inr ⟨next, rfl, afterPlan_of_ok happly, hsum, hwithin, hnext⟩

theorem acceptedPlans_of_ok {request next : WithdrawRequest} {plan : WithdrawPlan}
    (h : request.apply plan = .ok next) (rest : List WithdrawPlan) :
    request.acceptedPlans (plan :: rest) = plan :: next.acceptedPlans rest := by
  rw [acceptedPlans, h]

theorem acceptedPlans_of_error {request : WithdrawRequest} {plan : WithdrawPlan} {e : Error}
    (h : request.apply plan = .error e) (rest : List WithdrawPlan) :
    request.acceptedPlans (plan :: rest) = request.acceptedPlans rest := by
  rw [acceptedPlans, h]

/-- A plan for more than what remains is refused, also when the sum would leave 64 bits. -/
theorem acceptedPlans_of_excess {request : WithdrawRequest} {plan : WithdrawPlan}
    (h : request.requestedAmount.toNat < request.withdrawnAmount.toNat + plan.totalAmount.toNat)
    (rest : List WithdrawPlan) :
    request.acceptedPlans (plan :: rest) = request.acceptedPlans rest := by
  cases happly : request.apply plan with
  | error e => exact acceptedPlans_of_error happly rest
  | ok next =>
      obtain ⟨-, -, -, hsum, hwithin, -⟩ := apply_eq_ok_iff.1 happly
      rw [UInt64.le_iff_toNat_le] at hwithin
      omega

/-! ## Any number of plans -/

theorem afterPlans_cons (request : WithdrawRequest) (plan : WithdrawPlan)
    (rest : List WithdrawPlan) :
    request.afterPlans (plan :: rest) = (request.afterPlan plan).afterPlans rest := rfl

/-- Nothing but the withdrawn amount of a request changes. -/
theorem afterPlans_eq (request : WithdrawRequest) (plans : List WithdrawPlan) :
    request.afterPlans plans
      = { request with withdrawnAmount := (request.afterPlans plans).withdrawnAmount } := by
  induction plans generalizing request with
  | nil => rfl
  | cons plan rest ih =>
      rw [afterPlans_cons]
      rcases afterPlan_cases request plan with ⟨e, -, hafter⟩ | ⟨next, -, hafter, -, -, hnext⟩
      · rw [hafter]
        exact ih request
      · have hrest := ih next
        rw [hafter]
        rw [hnext] at hrest ⊢
        exact hrest

theorem requested_afterPlans (request : WithdrawRequest) (plans : List WithdrawPlan) :
    (request.afterPlans plans).requestedAmount = request.requestedAmount := by
  rw [afterPlans_eq]

/-- The accepted plans add up to what was withdrawn, without wrapping. -/
theorem withdrawn_afterPlans (request : WithdrawRequest) (plans : List WithdrawPlan) :
    (request.afterPlans plans).withdrawnAmount.toNat
      = request.withdrawnAmount.toNat
        + ((request.acceptedPlans plans).map (·.totalAmount.toNat)).sum := by
  induction plans generalizing request with
  | nil => rfl
  | cons plan rest ih =>
      rw [afterPlans_cons]
      rcases afterPlan_cases request plan with
        ⟨e, happly, hafter⟩ | ⟨next, happly, hafter, hsum, -, -⟩
      · rw [hafter, acceptedPlans_of_error happly]
        exact ih request
      · rw [hafter, acceptedPlans_of_ok happly, List.map_cons, List.sum_cons, ih next]
        omega

theorem withdrawn_le_afterPlans (request : WithdrawRequest) (plans : List WithdrawPlan) :
    request.withdrawnAmount ≤ (request.afterPlans plans).withdrawnAmount := by
  rw [UInt64.le_iff_toNat_le, withdrawn_afterPlans]
  omega

/-- A request within its amount stays within it. -/
theorem withdrawn_le_requested {request : WithdrawRequest}
    (h : request.withdrawnAmount ≤ request.requestedAmount) (plans : List WithdrawPlan) :
    (request.afterPlans plans).withdrawnAmount ≤ request.requestedAmount := by
  induction plans generalizing request with
  | nil => exact h
  | cons plan rest ih =>
      rw [afterPlans_cons]
      rcases afterPlan_cases request plan with ⟨e, -, hafter⟩ | ⟨next, -, hafter, -, hwithin, hnext⟩
      · rw [hafter]
        exact ih h
      · have hsame : next.requestedAmount = request.requestedAmount := by rw [hnext]
        rw [hafter, ← hsame]
        exact ih (hsame ▸ hwithin)

/-! ## Cancelling -/

theorem cancel_eq_ok {request : WithdrawRequest} {bond : Bond} {config : Config}
    {authority : Address} {voteWithdrawer : Option Address} {report : CancelReport}
    (h : request.cancel bond config authority voteWithdrawer = .ok report) :
    report.requestedAmount = request.requestedAmount ∧
      report.withdrawnAmount = request.withdrawnAmount ∧
      report.cancelledAmount = request.remaining := by
  unfold cancel at h
  split at h
  · cases h
  · split at h
    · cases h
    · cases h
      exact ⟨rfl, rfl, rfl⟩

theorem remaining_toNat {request : WithdrawRequest}
    (h : request.withdrawnAmount ≤ request.requestedAmount) :
    request.withdrawnAmount.toNat + request.remaining.toNat = request.requestedAmount.toNat := by
  rw [UInt64.le_iff_toNat_le] at h
  rw [remaining, subSaturating_toNat]
  omega

/-- After any plans submitted to a new request, each applied in place, the withdrawn amount is the
exact sum of the accepted ones and at most the requested amount; it never falls later on, all other
fields are those of the new request, a refused plan has written nothing, and a cancellation splits the
requested amount into what was withdrawn and what was not. -/
theorem progress_of_request {bond : Bond} {config : Config} {authority : Address}
    {voteWithdrawer : Option Address} {amount : UInt64} {clock : Clock} {request : WithdrawRequest}
    (hcreate : create bond config authority voteWithdrawer amount clock = .ok request)
    (plans : List WithdrawPlan) :
    let current := request.afterPlans plans
    (∀ desk : WithdrawDesk, desk.request = some request →
      WithdrawDesk.run bond config desk (plans.map .apply)
        = { desk with request := some current }) ∧
    (Update.execAll applyInPlace request plans).2 = current ∧
    current = { request with withdrawnAmount := current.withdrawnAmount } ∧
    current.withdrawnAmount.toNat
      = ((request.acceptedPlans plans).map (·.totalAmount.toNat)).sum ∧
    current.withdrawnAmount ≤ current.requestedAmount ∧
    (∀ later, current.withdrawnAmount ≤ (current.afterPlans later).withdrawnAmount) ∧
    (∀ plan e, current.apply plan = .error e → current.afterPlan plan = current) ∧
    (∀ plan e after, (applyInPlace plan).exec current = (.error e, after) →
      current.apply plan = .error e ∧ after = current) ∧
    ∀ other otherConfig caller withdrawer report,
      current.cancel other otherConfig caller withdrawer = .ok report →
        report.requestedAmount = request.requestedAmount ∧
        report.withdrawnAmount = current.withdrawnAmount ∧
        report.withdrawnAmount.toNat + report.cancelledAmount.toNat
          = report.requestedAmount.toNat := by
  intro current
  obtain ⟨-, -, -, -, -, hzero⟩ := create_eq_ok hcreate
  have hstart : request.withdrawnAmount ≤ request.requestedAmount := by
    rw [hzero, UInt64.le_iff_toNat_le]
    exact Nat.zero_le _
  have hsame : current.requestedAmount = request.requestedAmount :=
    requested_afterPlans request plans
  have hwithin : current.withdrawnAmount ≤ current.requestedAmount := by
    rw [hsame]
    exact withdrawn_le_requested hstart plans
  have hsum := withdrawn_afterPlans request plans
  rw [hzero, UInt64.toNat_zero, Nat.zero_add] at hsum
  refine ⟨fun desk hdesk => WithdrawDesk.run_applications hdesk plans,
    Update.execAll_snd exec_applyInPlace_snd request plans, afterPlans_eq request plans,
    hsum, hwithin, withdrawn_le_afterPlans current, fun plan e => afterPlan_of_error, ?_, ?_⟩
  · intro plan e after hrefused
    rwa [exec_applyInPlace, Update.commit_map_eq_error_iff] at hrefused
  · intro other otherConfig caller withdrawer report hcancel
    obtain ⟨hrequested, hwithdrawn, hcancelled⟩ := cancel_eq_ok hcancel
    have htotal := remaining_toNat hwithin
    exact ⟨hrequested.trans hsame, hwithdrawn, by rw [hrequested, hwithdrawn, hcancelled, htotal]⟩

/-- Of a plan, its replay, a plan beyond the requested amount, one beyond 64 bits and a plan for the
rest, the first and the last are accepted. -/
theorem progress_of_request_in_two_parts :
    let config : Config := ⟨Bytes32.zero, Bytes32.zero, 3, 0, 3, 0⟩
    let bond : Bond := ⟨Bytes32.zero, Bytes32.zero, Bytes32.zero, 0, 0⟩
    let plan (before total : UInt64) : WithdrawPlan :=
      ⟨Bytes32.zero, bond.address config, 1, 2, 10, before, [], total, Bytes32.zero, Bytes32.zero⟩
    let plans : List WithdrawPlan :=
      [plan 0 4, plan 0 4, plan 4 7, plan 4 18446744073709551615, plan 4 6]
    ∃ request, create bond config Bytes32.zero none 10 ⟨1, 2, 0⟩ = .ok request ∧
      request.acceptedPlans plans = [plan 0 4, plan 4 6] ∧
      (request.afterPlans plans).withdrawnAmount.toNat
        = ((request.acceptedPlans plans).map (·.totalAmount.toNat)).sum ∧
      (request.afterPlans plans).withdrawnAmount ≤ (request.afterPlans plans).requestedAmount ∧
      (Update.execAll applyInPlace request plans).2.withdrawnAmount.toNat = 10 := by
  intro config bond plan plans
  obtain ⟨request, hcreate⟩ := exists_create bond config none (show (10 : UInt64) ≠ 0 by decide)
    ⟨1, 2, 0⟩
  obtain ⟨-, hbond, hepoch, hslot, hamount, hzero⟩ := create_eq_ok hcreate
  obtain ⟨-, hinPlace, -, hsum, hwithin, -⟩ := progress_of_request hcreate plans
  let advanced (withdrawn : UInt64) : WithdrawRequest :=
    { request with withdrawnAmount := withdrawn }
  have hplanned : ∀ withdrawn before total,
      (advanced withdrawn).isPlannedBy (plan before total) = true := by
    intro withdrawn before total
    simp [advanced, plan, isPlannedBy, hbond, hepoch, hslot, hamount]
  have hstart : request = advanced 0 := by
    simp only [advanced, ← hzero]
  have happly : ∀ withdrawn total after : UInt64, withdrawn < 10 → after ≤ 10 →
      withdrawn.toNat + total.toNat = after.toNat →
      (advanced withdrawn).apply (plan withdrawn total) = .ok (advanced after) := by
    intro withdrawn total after hmissing hwithin hsum
    refine apply_eq_ok_iff.2 ⟨hplanned _ _ _, rfl, ?_, hsum, ?_, rfl⟩
    · change withdrawn < request.requestedAmount
      rwa [hamount]
    · change after ≤ request.requestedAmount
      rwa [hamount]
  have hexcess : ∀ (total : UInt64) (rest : List WithdrawPlan), 10 < 4 + total.toNat →
      (advanced 4).acceptedPlans (plan 4 total :: rest) = (advanced 4).acceptedPlans rest := by
    intro total rest hmore
    apply acceptedPlans_of_excess
    change request.requestedAmount.toNat < 4 + total.toNat
    rwa [hamount]
  have hreplay : (advanced 4).apply (plan 0 4) = .error (advanced 4).alreadyFulfilled :=
    apply_of_outdated hbond.symm fun _ => .inr (show (0 : UInt64) ≠ 4 by decide)
  have haccepted : request.acceptedPlans plans = [plan 0 4, plan 4 6] := by
    rw [hstart, acceptedPlans_of_ok (happly 0 4 4 (by decide) (by decide) rfl),
      acceptedPlans_of_error hreplay, hexcess 7 _ (by decide),
      hexcess 18446744073709551615 _ (by decide),
      acceptedPlans_of_ok (happly 4 6 10 (by decide) (by decide) rfl), acceptedPlans]
  refine ⟨request, hcreate, haccepted, hsum, hwithin, ?_⟩
  rw [hinPlace, hsum, haccepted]
  rfl

end Surety.WithdrawRequest
