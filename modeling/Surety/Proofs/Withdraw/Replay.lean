import Mathlib.Data.List.Nodup
import Surety.Proofs.Withdraw.Step

/-!
# Replayed plans

A plan that was accepted once is of no use afterwards, through partial fulfilments, cancellations and
new requests of the same bond, provided that the plan moves lamports and that no two requests of the
run agree in epoch, slot and amount of their creation.

* `Spent` is what remains true of an applied plan: the request that it names, should it be current,
  has progressed at least as far as the plan went.
* `current_of_step` says where the current request after an operation comes from; that a plan stays
  spent (`spent_run`) and that requests keep their identity (`origin_of_run`) are read off it.
* `replay_refused` is the result for a run.

A plan that moves nothing leaves the request in the progress that the plan names, so it is accepted
again: `empty_plan_applied_twice` makes and applies such a plan.
-/

namespace Surety

/-! ## Identities -/

/-- What a plan names a request by, within its bond. -/
def WithdrawPlan.identity (plan : WithdrawPlan) : UInt64 × UInt64 × UInt64 :=
  (plan.requestEpoch, plan.requestCreatedAtSlot, plan.requestedAmount)

/-- What tells the requests of a bond apart: epoch, slot and amount of their creation. -/
def WithdrawRequest.identity (request : WithdrawRequest) : UInt64 × UInt64 × UInt64 :=
  (request.epoch, request.createdAtSlot, request.requestedAmount)

namespace WithdrawRequest

theorem isPlannedBy_iff {request : WithdrawRequest} {plan : WithdrawPlan} :
    request.isPlannedBy plan = true ↔
      plan.bond = request.bond ∧ plan.identity = request.identity := by
  simp only [isPlannedBy, Bool.and_eq_true, decide_eq_true_eq, WithdrawPlan.identity, identity,
    Prod.mk.injEq]
  constructor
  · rintro ⟨⟨⟨hbond, hepoch⟩, hslot⟩, hamount⟩
    exact ⟨hbond, hepoch, hslot, hamount⟩
  · rintro ⟨hbond, hepoch, hslot, hamount⟩
    exact ⟨⟨⟨hbond, hepoch⟩, hslot⟩, hamount⟩

theorem identity_of_apply {request next : WithdrawRequest} {plan : WithdrawPlan}
    (h : request.apply plan = .ok next) :
    next.bond = request.bond ∧ next.identity = request.identity := by
  obtain ⟨-, -, -, -, -, hnext⟩ := apply_eq_ok_iff.1 h
  rw [hnext]
  exact ⟨rfl, rfl⟩

/-! ## Spent plans -/

/-- A plan is for the bond of a request, and if it names the request, the request has progressed to
where the plan leads, or further. -/
def Spent (plan : WithdrawPlan) (request : WithdrawRequest) : Prop :=
  plan.bond = request.bond ∧ (plan.identity = request.identity →
    plan.withdrawnBefore.toNat + plan.totalAmount.toNat ≤ request.withdrawnAmount.toNat)

theorem spent_of_apply {request next : WithdrawRequest} {plan : WithdrawPlan}
    (h : request.apply plan = .ok next) : Spent plan next := by
  obtain ⟨hplanned, hbefore, -, hsum, -, -⟩ := apply_eq_ok_iff.1 h
  have hbond := (identity_of_apply h).1
  refine ⟨(isPlannedBy_iff.1 hplanned).1.trans hbond.symm, fun _ => ?_⟩
  rw [hbefore]
  omega

/-- Other plans only take a request further. -/
theorem Spent.apply {plan other : WithdrawPlan} {request next : WithdrawRequest}
    (h : Spent plan request) (happly : request.apply other = .ok next) : Spent plan next := by
  obtain ⟨hbond, hidentity⟩ := identity_of_apply happly
  obtain ⟨-, -, -, hsum, -, -⟩ := apply_eq_ok_iff.1 happly
  refine ⟨h.1.trans hbond.symm, fun hnamed => ?_⟩
  have hreached := h.2 (hnamed.trans hidentity)
  omega

/-- A spent plan that moves lamports is taken for fulfilled. -/
theorem Spent.refused {plan : WithdrawPlan} {request : WithdrawRequest} (h : Spent plan request)
    (hmoves : plan.totalAmount ≠ 0) : request.apply plan = .error request.alreadyFulfilled := by
  have hpositive : 0 < plan.totalAmount.toNat := by
    apply Nat.pos_of_ne_zero
    intro hzero
    exact hmoves (UInt64.toNat_inj.1 hzero)
  refine apply_of_outdated h.1 fun hplanned => .inr ?_
  intro hbefore
  have hreached := h.2 (isPlannedBy_iff.1 hplanned).2
  rw [hbefore] at hreached
  omega

/-- A plan that moves nothing leaves the request as it is. -/
theorem eq_of_apply_empty {request next : WithdrawRequest} {plan : WithdrawPlan}
    (h : request.apply plan = .ok next) (hempty : plan.totalAmount = 0) : next = request := by
  obtain ⟨-, -, -, hsum, -, hnext⟩ := apply_eq_ok_iff.1 h
  have hsame : next.withdrawnAmount = request.withdrawnAmount := by
    apply UInt64.toNat_inj.1
    rw [hempty, UInt64.toNat_zero] at hsum
    omega
  rw [hnext, hsame]

/-- A stake account without lamports fulfils nothing, and is taken whole all the same. -/
theorem plan_from_empty_account {request : WithdrawRequest} {context : WithdrawContext}
    {account : Stake.Account}
    (hlockup : request.checkLockup context.config context.clock = .ok ())
    (hmissing : request.isFulfilled = false)
    (howned : request.checkOwned context.bondsAuthority account = .ok ())
    (hempty : account.balance = 0) :
    request.plan [account] context = .ok (request.planOf context [wholeStep account] 0) := by
  have hremaining : request.remaining ≠ 0 := by simpa [isFulfilled] using hmissing
  have heligible : request.eligible context.bondsAuthority [account] = [account] := by
    simp [eligible, howned, Stake.passes, Except.toBool]
  have htaken : takeWhole request.remaining [account] = ([account], []) := by
    simp [takeWhole, hremaining, hempty]
  have hselected : selectSteps request.remaining context.config.minimumStake [account]
      = .ok ([wholeStep account], 0) := by
    simp [selectSteps, htaken, totalBalance, hempty, finalSplit, hremaining]
  rw [plan_eq, hlockup, heligible]
  simp only [hselected, if_neg hremaining, List.isEmpty_cons, Bool.false_eq_true, if_false]
end WithdrawRequest

namespace WithdrawDesk

open WithdrawRequest (Spent)

/-! ## The requests of a run -/

/-- The request that an operation brings to the desk. -/
def opened? (bond : Bond) (config : Config) : Operation → Option WithdrawRequest
  | .create authority voteWithdrawer amount clock =>
      (WithdrawRequest.create bond config authority voteWithdrawer amount clock).toOption
  | .place request => some request
  | _ => none

/-- The requests of a run: the one that is current at its start and those brought to the desk. -/
def requests (bond : Bond) (config : Config) (desk : WithdrawDesk) (operations : List Operation) :
    List WithdrawRequest :=
  desk.request.toList ++ operations.filterMap (opened? bond config)

section

variable {bond : Bond} {config : Config} {desk next : WithdrawDesk} {plan : WithdrawPlan}

/-- The current request after an operation was brought by it, or it was current before, perhaps with
less progress. -/
theorem current_of_step {operation : Operation} {request : WithdrawRequest}
    (h : (after bond config desk operation).request = some request) :
    opened? bond config operation = some request ∨
    ∃ before, desk.request = some before ∧
      (request = before ∨ ∃ other, before.apply other = .ok request) := by
  rcases perform_cases bond config desk operation with ⟨_, -, hafter⟩ | ⟨_, _, -, hafter, hstep⟩
  · rw [hafter] at h
    exact .inr ⟨request, h, .inl rfl⟩
  · rw [hafter] at h
    cases hstep with
    | create hcreate =>
        left
        rw [opened?, hcreate]
        exact h
    | place => exact .inl h
    | plan hcurrent hplan => exact .inr ⟨request, h, .inl rfl⟩
    | apply hcurrent happly =>
        obtain rfl := Option.some.inj h
        exact .inr ⟨_, hcurrent, .inr ⟨_, happly⟩⟩
    | cancel => cases h

/-- The current request after a run is one of its requests, perhaps with more progress. -/
theorem origin_of_run {operations : List Operation} {request : WithdrawRequest}
    (h : (run bond config desk operations).request = some request) :
    ∃ source ∈ requests bond config desk operations,
      source.bond = request.bond ∧ source.identity = request.identity := by
  induction operations generalizing desk with
  | nil =>
      refine ⟨request, ?_, rfl, rfl⟩
      change desk.request = some request at h
      simp [requests, h]
  | cons operation rest ih =>
      obtain ⟨source, hsource, hbond, hidentity⟩ := ih h
      rcases List.mem_append.1 hsource with hcurrent | hlater
      · rcases current_of_step (Option.mem_toList.1 hcurrent) with
          hopened | ⟨before, hbefore, hsame | ⟨_, happly⟩⟩
        · exact ⟨source, by simp [requests, hopened], hbond, hidentity⟩
        · exact ⟨before, by simp [requests, hbefore], hsame ▸ hbond, hsame ▸ hidentity⟩
        · obtain ⟨hsameBond, hsame⟩ := WithdrawRequest.identity_of_apply happly
          exact ⟨before, by simp [requests, hbefore], hsameBond.symm.trans hbond,
            hsame.symm.trans hidentity⟩
      · refine ⟨source, ?_, hbond, hidentity⟩
        obtain ⟨later, hmem, hopened⟩ := List.mem_filterMap.1 hlater
        exact List.mem_append_right _
          (List.mem_filterMap.2 ⟨later, List.mem_cons_of_mem _ hmem, hopened⟩)

/-- A plan stays spent as long as no request of its bond with its identity is brought to the desk. -/
theorem spent_run {operations : List Operation}
    (hspent : ∀ request, desk.request = some request → Spent plan request)
    (hforeign : ∀ request ∈ operations.filterMap (opened? bond config),
      plan.bond = request.bond ∧ plan.identity ≠ request.identity) :
    ∀ request, (run bond config desk operations).request = some request → Spent plan request := by
  -- over the run, for any desk: each request that becomes current is a foreign one, or comes from
  -- the one before it by a plan
  induction operations generalizing desk with
  | nil => exact hspent
  | cons operation rest ih =>
      refine @ih (after bond config desk operation) ?_ ?_
      · intro request hrequest
        rcases current_of_step hrequest with
          hopened | ⟨before, hbefore, hsame | ⟨_, happly⟩⟩
        · obtain ⟨hbond, hother⟩ := hforeign request (by simp [hopened])
          exact ⟨hbond, fun hnamed => absurd hnamed hother⟩
        · exact hsame ▸ hspent before hbefore
        · exact (hspent before hbefore).apply happly
      · intro request hrequest
        obtain ⟨later, hmem, hopened⟩ := List.mem_filterMap.1 hrequest
        exact hforeign request
          (List.mem_filterMap.2 ⟨later, List.mem_cons_of_mem _ hmem, hopened⟩)

/-- Where all requests of a run belong to one bond and no two agree in their identity, the later ones
are told apart from the one that is current in between by their identity alone. -/
theorem foreign_of_distinct {first middle : List Operation} {address : Address}
    {request later : WithdrawRequest}
    (hbond : ∀ request ∈ requests bond config desk (first ++ middle), request.bond = address)
    (hdistinct : ((requests bond config desk (first ++ middle)).map (·.identity)).Nodup)
    (hcurrent : (run bond config desk first).request = some request)
    (hlater : later ∈ middle.filterMap (opened? bond config)) :
    request.bond = later.bond ∧ request.identity ≠ later.identity := by
  have hsplit : requests bond config desk (first ++ middle)
      = requests bond config desk first ++ middle.filterMap (opened? bond config) := by
    simp [requests]
  obtain ⟨source, hsource, hsameBond, hsame⟩ := origin_of_run hcurrent
  rw [hsplit] at hbond hdistinct
  rw [List.map_append, List.nodup_append] at hdistinct
  constructor
  · rw [← hsameBond, hbond source (List.mem_append_left _ hsource),
      hbond later (List.mem_append_right _ hlater)]
  · rw [← hsame]
    exact hdistinct.2.2 _ (List.mem_map_of_mem hsource) _ (List.mem_map_of_mem hlater)

/-- In a run over requests of one bond, no two of which agree in epoch, slot and amount of their
creation, a plan that was applied and moves lamports is answered as fulfilled ever after, whichever
request is current, and leaves it as it is.  A plan that moves nothing is accepted again at once. -/
theorem replay_refused {first middle : List Operation} {outcome : Outcome} {address : Address}
    (hbond : ∀ request ∈ requests bond config desk (first ++ middle), request.bond = address)
    (hdistinct : ((requests bond config desk (first ++ middle)).map (·.identity)).Nodup)
    (happlied : perform bond config (run bond config desk first) (.apply plan)
      = .ok (outcome, next)) :
    (plan.totalAmount ≠ 0 → ∀ request, (run bond config next middle).request = some request →
      perform bond config (run bond config next middle) (.apply plan)
        = .error (.refused request.alreadyFulfilled) ∧
      after bond config (run bond config next middle) (.apply plan)
        = run bond config next middle) ∧
    (plan.totalAmount = 0 → perform bond config next (.apply plan) = .ok (outcome, next)) := by
  obtain ⟨before, advanced, hcurrent, happly, rfl, rfl⟩ := perform_apply_eq_ok_iff.1 happlied
  obtain ⟨hplanBond, hplanIdentity⟩ :=
    WithdrawRequest.isPlannedBy_iff.1 (WithdrawRequest.apply_eq_ok_iff.1 happly).1
  constructor
  · -- the plan is spent for the request it advanced, and every later one is foreign to it
    intro hmoves request hrequest
    have hforeign : ∀ later ∈ middle.filterMap (opened? bond config),
        plan.bond = later.bond ∧ plan.identity ≠ later.identity := by
      intro later hlater
      rw [hplanBond, hplanIdentity]
      exact foreign_of_distinct hbond hdistinct hcurrent hlater
    have hspent : Spent plan request := by
      refine spent_run ?_ hforeign request hrequest
      intro current hadvanced
      obtain rfl := Option.some.inj hadvanced
      exact WithdrawRequest.spent_of_apply happly
    have hrefused := @perform_apply_of_error bond config _ _ _ _ hrequest (hspent.refused hmoves)
    exact ⟨hrefused, by rw [after, hrefused]⟩
  · -- the desk after an empty plan is the desk before it
    intro hempty
    have hsame := WithdrawRequest.eq_of_apply_empty happly hempty
    rw [hsame] at happly ⊢
    exact perform_apply_eq_ok_iff.2 ⟨_, _, rfl, happly, rfl, rfl⟩

end

/-- A plan for a part is applied, the request is cancelled and made again for the same amount in the
next slot: the plan is refused by the new request, which nothing was withdrawn from. -/
theorem replay_refused_after_recreation :
    let config : Config := ⟨Bytes32.zero, Bytes32.zero, 3, 0, 3, 0⟩
    let bond : Bond := ⟨Bytes32.zero, Bytes32.zero, Bytes32.zero, 0, 0⟩
    let plan : WithdrawPlan :=
      ⟨Bytes32.zero, bond.address config, 1, 2, 10, 0, [], 4, Bytes32.zero, Bytes32.zero⟩
    let first : List Operation := [.create Bytes32.zero none 10 ⟨1, 2, 0⟩]
    let middle : List Operation :=
      [.cancel bond Bytes32.zero none, .create Bytes32.zero none 10 ⟨1, 3, 0⟩]
    ∃ next request,
      (∀ opened ∈ requests bond config ⟨none, []⟩ (first ++ middle),
        opened.bond = bond.address config) ∧
      ((requests bond config ⟨none, []⟩ (first ++ middle)).map (·.identity)).Nodup ∧
      perform bond config (run bond config ⟨none, []⟩ first) (.apply plan)
        = .ok (.applied 4, next) ∧
      (run bond config next middle).request = some request ∧
      perform bond config (run bond config next middle) (.apply plan)
        = .error (.refused request.alreadyFulfilled) := by
  intro config bond plan first middle
  have hamount : (10 : UInt64) ≠ 0 := by decide
  obtain ⟨old, hold⟩ := WithdrawRequest.exists_create bond config none hamount ⟨1, 2, 0⟩
  obtain ⟨new, hnew⟩ := WithdrawRequest.exists_create bond config none hamount ⟨1, 3, 0⟩
  obtain ⟨-, holdBond, holdEpoch, holdSlot, holdAmount, holdWithdrawn⟩ :=
    WithdrawRequest.create_eq_ok hold
  obtain ⟨-, hnewBond, hnewEpoch, hnewSlot, hnewAmount, -⟩ := WithdrawRequest.create_eq_ok hnew
  have hrequests : requests bond config ⟨none, []⟩ (first ++ middle) = [old, new] := by
    have hopensOld : opened? bond config (.create Bytes32.zero none 10 ⟨1, 2, 0⟩) = some old :=
      congrArg Except.toOption hold
    have hopensNew : opened? bond config (.create Bytes32.zero none 10 ⟨1, 3, 0⟩) = some new :=
      congrArg Except.toOption hnew
    show List.filterMap (opened? bond config) (first ++ middle) = [old, new]
    rw [List.singleton_append, List.filterMap_cons_some hopensOld, List.filterMap_cons_none rfl,
      List.filterMap_cons_some hopensNew, List.filterMap_nil]
  have hbond : ∀ opened ∈ requests bond config ⟨none, []⟩ (first ++ middle),
      opened.bond = bond.address config := by
    intro opened hmem
    rw [hrequests] at hmem
    rcases List.mem_pair.1 hmem with rfl | rfl
    · exact holdBond
    · exact hnewBond
  have hdistinct : ((requests bond config ⟨none, []⟩ (first ++ middle)).map (·.identity)).Nodup := by
    rw [hrequests]
    simp [WithdrawRequest.identity, holdSlot, hnewSlot]
  have hdesk : run bond config ⟨none, []⟩ first = ⟨some old, []⟩ := after_of_step (.create hold)
  have happly : old.apply plan = .ok { old with withdrawnAmount := 4 } := by
    refine WithdrawRequest.apply_eq_ok_iff.2 ⟨?_, holdWithdrawn.symm, ?_, ?_, ?_, rfl⟩
    · rw [WithdrawRequest.isPlannedBy_iff, WithdrawRequest.identity, holdBond, holdEpoch, holdSlot,
        holdAmount]
      exact ⟨rfl, rfl⟩
    · rw [holdWithdrawn, holdAmount]
      decide
    · rw [holdWithdrawn]
      rfl
    · show (4 : UInt64) ≤ old.requestedAmount
      rw [holdAmount]
      decide
  have happlied : perform bond config (run bond config ⟨none, []⟩ first) (.apply plan)
      = .ok (.applied 4, ⟨some { old with withdrawnAmount := 4 }, []⟩) := by
    rw [hdesk]
    exact perform_apply_eq_ok_iff.2 ⟨old, _, rfl, happly, rfl, rfl⟩
  obtain ⟨report, hcancel⟩ := WithdrawRequest.exists_cancel config none
    (show WithdrawRequest.bond { old with withdrawnAmount := 4 } = bond.address config from holdBond)
  have hcancelled : after bond config ⟨some { old with withdrawnAmount := 4 }, []⟩
      (.cancel bond Bytes32.zero none) = ⟨none, []⟩ := after_of_step (.cancel rfl hcancel)
  have hrecreated : after bond config ⟨none, []⟩ (.create Bytes32.zero none 10 ⟨1, 3, 0⟩)
      = ⟨some new, []⟩ := after_of_step (.create hnew)
  have hcurrent : run bond config ⟨some { old with withdrawnAmount := 4 }, []⟩ middle
      = ⟨some new, []⟩ := by
    simp only [run, middle, List.foldl_cons, List.foldl_nil]
    rw [hcancelled, hrecreated]
  obtain ⟨hrefused, -⟩ := (replay_refused hbond hdistinct happlied).1
    (show (4 : UInt64) ≠ 0 by decide) new (by rw [hcurrent])
  exact ⟨_, new, hbond, hdistinct, happlied, by rw [hcurrent], hrefused⟩

/-- A plan made from a stake account without lamports is accepted, and accepted again. -/
theorem empty_plan_applied_twice :
    let config : Config := ⟨Bytes32.zero, Bytes32.zero, 3, 0, 3, 0⟩
    let bond : Bond := ⟨Bytes32.zero, Bytes32.zero, Bytes32.zero, 0, 0⟩
    let account : Stake.Account :=
      ⟨Bytes32.zero, some Bytes32.zero, some Bytes32.zero, some Bytes32.zero, none, none, false,
        false, 0, 0, 0, none, .active⟩
    let context : WithdrawContext :=
      ⟨config, ⟨4, 5, 0⟩, Bytes32.zero, Bytes32.zero, Bytes32.zero⟩
    let desk := run bond config ⟨none, []⟩
      [.create Bytes32.zero none 10 ⟨1, 2, 0⟩, .plan [account] context]
    ∃ plan, desk.plans = [plan] ∧
      perform bond config desk (.apply plan) = .ok (.applied 0, desk) ∧
      perform bond config (after bond config desk (.apply plan)) (.apply plan)
        = .ok (.applied 0, desk) := by
  intro config bond account context desk
  obtain ⟨request, hcreate⟩ := WithdrawRequest.exists_create bond config none
    (show (10 : UInt64) ≠ 0 by decide) ⟨1, 2, 0⟩
  obtain ⟨hvote, -, hepoch, -, hamount, hzero⟩ := WithdrawRequest.create_eq_ok hcreate
  have hmissing : request.isFulfilled = false := by
    rw [WithdrawRequest.isFulfilled_eq_false_iff, hzero, hamount]
    decide
  have hlockup : request.checkLockup context.config context.clock = .ok () := by
    rw [WithdrawRequest.checkLockup, WithdrawRequest.withdrawableFrom, hepoch]
    rfl
  have howned : request.checkOwned context.bondsAuthority account = .ok () := by
    rw [WithdrawRequest.checkOwned, hvote]
    rfl
  have hplan := WithdrawRequest.plan_from_empty_account hlockup hmissing howned rfl
  let plan := request.planOf context [WithdrawRequest.wholeStep account] 0
  have hcreated : after bond config ⟨none, []⟩ (.create Bytes32.zero none 10 ⟨1, 2, 0⟩)
      = ⟨some request, []⟩ := after_of_step (.create hcreate)
  have hplanned : after bond config ⟨some request, []⟩ (.plan [account] context)
      = ⟨some request, [plan]⟩ := after_of_step (.plan rfl hplan)
  have hdesk : desk = ⟨some request, [plan]⟩ := by
    simp only [desk, run, List.foldl_cons, List.foldl_nil]
    rw [hcreated, hplanned]
  have happly : request.apply plan = .ok request := by
    refine WithdrawRequest.apply_eq_ok_iff.2 ⟨?_, rfl, ?_, ?_, ?_, rfl⟩
    · exact WithdrawRequest.isPlannedBy_iff.2 ⟨rfl, rfl⟩
    · exact WithdrawRequest.isFulfilled_eq_false_iff.1 hmissing
    · show request.withdrawnAmount.toNat + 0 = request.withdrawnAmount.toNat
      omega
    · rw [hzero, hamount]
      decide
  have happlied : perform bond config desk (.apply plan) = .ok (.applied 0, desk) := by
    rw [hdesk, ← hzero]
    exact perform_apply_eq_ok_iff.2 ⟨request, request, rfl, happly, rfl, rfl⟩
  refine ⟨plan, by rw [hdesk], happlied, ?_⟩
  have hsame : after bond config desk (.apply plan) = desk := by rw [after, happlied]
  rw [hsame, happlied]

end WithdrawDesk

end Surety
