import Surety.Proofs.Withdraw.Progress
import Surety.Proofs.Withdraw.Selection

/-!
# The lamports that a withdraw plan moves

The steps of a plan move its total, which is at most what remained of the request, and the plan is
accepted as long as the request does not change.  Balances are arbitrary, so the lamports of all
accounts together may leave 64 bits; those of the accounts that are taken never do.

* `lamportsOf` adds up balances over unbounded numbers; `lamportsOf_takeWhole_le` bounds those taken.
* `checkedPlan` is the planning with one running total, in which every sum and every difference may
  fail; `checkedPlan_eq` says that none does.
* `total_of_selectSteps` is the total of a selection, `apply_planOf` the effect of a plan.
* `plan_is_applicable` puts them together.
-/

namespace Surety

namespace WithdrawRequest

open Stake (Account)

/-! ## Lamports of accounts -/

/-- The lamports of accounts together, over unbounded numbers. -/
def lamportsOf (accounts : List Account) : Nat := (accounts.map (·.balance.toNat)).sum

@[simp] theorem lamportsOf_nil : lamportsOf [] = 0 := rfl

@[simp] theorem lamportsOf_cons (account : Account) (rest : List Account) :
    lamportsOf (account :: rest) = account.balance.toNat + lamportsOf rest := rfl

/-- The lamports that steps move, over unbounded numbers. -/
def lamportsMoved (steps : List WithdrawStep) : Nat := (steps.map (·.lamports.toNat)).sum

theorem lamportsMoved_whole (accounts : List Account) :
    lamportsMoved (accounts.map wholeStep) = lamportsOf accounts := by
  rw [lamportsMoved, lamportsOf, List.map_map]
  rfl

theorem lamportsMoved_append_split (accounts : List Account) (amount : UInt64)
    (account : Account) :
    lamportsMoved (accounts.map wholeStep ++ [splitStep amount account])
      = lamportsOf accounts + amount.toNat := by
  rw [← lamportsMoved_whole]
  simp [lamportsMoved, splitStep, WithdrawStep.lamports]

theorem foldl_balance (start : UInt64) (accounts : List Account) :
    accounts.foldl (fun total account => total + account.balance) start
      = start + totalBalance accounts := by
  induction accounts generalizing start with
  | nil => exact (UInt64.add_zero start).symm
  | cons account rest ih =>
      rw [totalBalance, List.foldl_cons, List.foldl_cons, ih, ih, UInt64.zero_add, UInt64.add_assoc]

@[simp] theorem totalBalance_nil : totalBalance [] = 0 := rfl

theorem totalBalance_cons (account : Account) (rest : List Account) :
    totalBalance (account :: rest) = account.balance + totalBalance rest := by
  rw [totalBalance, List.foldl_cons, foldl_balance, UInt64.zero_add]

/-- A sum of balances that fits 64 bits does not wrap on the way. -/
theorem totalBalance_toNat {accounts : List Account} (h : lamportsOf accounts < 2 ^ 64) :
    (totalBalance accounts).toNat = lamportsOf accounts := by
  induction accounts with
  | nil => rfl
  | cons account rest ih =>
      rw [lamportsOf_cons] at h
      have hrest := ih (by omega)
      rw [totalBalance_cons, lamportsOf_cons, toNat_add_of_lt (by omega), hrest]

/-- The accounts that are taken fit into what was missing. -/
theorem lamportsOf_takeWhole_le (needed : UInt64) (accounts : List Account) :
    lamportsOf (takeWhole needed accounts).1 ≤ needed.toNat := by
  induction accounts generalizing needed with
  | nil => simp
  | cons account rest ih =>
      by_cases hneeded : needed = 0
      · rw [hneeded, takeWhole_zero]
        simp
      · by_cases hfits : account.balance ≤ needed
        · have hrest := ih (needed - account.balance)
          rw [UInt64.toNat_sub_of_le _ _ hfits] at hrest
          rw [UInt64.le_iff_toNat_le] at hfits
          rw [takeWhole_cons_of_le hneeded (UInt64.le_iff_toNat_le.2 hfits), lamportsOf_cons]
          omega
        · rw [takeWhole_cons_of_lt hneeded (UInt64.not_le.1 hfits)]
          exact ih needed

theorem totalBalance_takeWhole_toNat (needed : UInt64) (accounts : List Account) :
    (totalBalance (takeWhole needed accounts).1).toNat
      = lamportsOf (takeWhole needed accounts).1 :=
  totalBalance_toNat (Nat.lt_of_le_of_lt (lamportsOf_takeWhole_le needed accounts) needed.toNat_lt)

theorem totalBalance_takeWhole_le (needed : UInt64) (accounts : List Account) :
    totalBalance (takeWhole needed accounts).1 ≤ needed := by
  rw [UInt64.le_iff_toNat_le, totalBalance_takeWhole_toNat]
  exact lamportsOf_takeWhole_le needed accounts

/-! ## Planning with every sum and difference checked -/

/-- How far a pass over the accounts has come. -/
structure Gathered where
  total : UInt64
  steps : List WithdrawStep
  /-- the accounts that did not fit -/
  left : List Account

/-- The pass over the accounts: what is missing is found anew from the running total each time. -/
def checkedGather (amount : UInt64) (state : Gathered) : List Account → Option Gathered
  | [] => some state
  | account :: rest => do
      let needed ← subChecked amount state.total
      if needed = 0 then some state
      else if account.balance ≤ needed then
        let total ← addChecked state.total account.balance
        checkedGather amount
          { state with total := total, steps := state.steps ++ [wholeStep account] } rest
      else checkedGather amount { state with left := state.left ++ [account] } rest

/-- The first refusal to split an amount off one of the accounts. -/
def firstRefusal? (amount minStake : UInt64) (accounts : List Account) : Option Error :=
  accounts.findSome? fun account =>
    match Stake.checkSplittable account amount minStake with
    | .error e => some e
    | .ok () => none

/-- The pass, and the split that covers what is still missing after it. -/
def checkedSelect (amount minStake : UInt64) (accounts : List Account) :
    Option (Result (List WithdrawStep × UInt64)) := do
  let ⟨total, steps, left⟩ ← checkedGather amount ⟨0, [], []⟩ accounts
  let needed ← subChecked amount total
  if needed = 0 ∨ left = [] then some (.ok (steps, total))
  else
    match left.find? fun account =>
        Stake.passes (Stake.checkSplittable account needed minStake) with
    | some account =>
        let total ← addChecked total needed
        let kept ← subChecked account.balance needed
        some (.ok (steps ++ [.split account.address needed kept], total))
    | none =>
        match firstRefusal? needed minStake left with
        | some e => some (.error e)
        | none => some (.ok (steps, total))

/-- The plan, unless a sum or a difference on the way leaves 64 bits. -/
def checkedPlan (request : WithdrawRequest) (accounts : List Account) (context : WithdrawContext) :
    Option (Result WithdrawPlan) :=
  match request.checkLockup context.config context.clock with
  | .error e => some (.error e)
  | .ok () =>
      if request.remaining = 0 then some (.error request.alreadyFulfilled)
      else if (request.eligible context.bondsAuthority accounts).isEmpty then
        some (.error (request.noneEligible context.bondsAuthority accounts))
      else
        (checkedSelect request.remaining context.config.minimumStake
          (request.eligible context.bondsAuthority accounts)).map fun selected =>
            selected.map fun (steps, total) => request.planOf context steps total

/-- The pass takes and leaves what `takeWhole` does, and keeps its total within the amount. -/
theorem checkedGather_eq {amount : UInt64} {state : Gathered} (hwithin : state.total ≤ amount)
    (accounts : List Account) :
    checkedGather amount state accounts = some
      { total := state.total + totalBalance (takeWhole (amount - state.total) accounts).1
        steps := state.steps ++ (takeWhole (amount - state.total) accounts).1.map wholeStep
        left := state.left ++ (takeWhole (amount - state.total) accounts).2 } := by
  -- the total is within the amount at every account, which is all that the two checks ask for
  induction accounts generalizing state with
  | nil => simp [checkedGather]
  | cons account rest ih =>
      have hneeded := UInt64.toNat_sub_of_le _ _ hwithin
      have hle := UInt64.le_iff_toNat_le.1 hwithin
      have hlt := amount.toNat_lt
      rw [checkedGather, subChecked_of_le hwithin]
      dsimp only [Option.bind_eq_bind, Option.bind_some]
      by_cases hdone : amount - state.total = 0
      · rw [if_pos hdone, hdone, takeWhole_zero]
        simp
      · rw [if_neg hdone]
        by_cases hfits : account.balance ≤ amount - state.total
        · have hfitsNat := UInt64.le_iff_toNat_le.1 hfits
          have hsum : state.total.toNat + account.balance.toNat < 2 ^ 64 := by omega
          have htotal := toNat_add_of_lt hsum
          have hstill : state.total + account.balance ≤ amount := by
            rw [UInt64.le_iff_toNat_le]
            omega
          have hnext : amount - (state.total + account.balance)
              = amount - state.total - account.balance := by
            apply UInt64.toNat_inj.1
            rw [UInt64.toNat_sub_of_le _ _ hstill, UInt64.toNat_sub_of_le _ _ hfits]
            omega
          rw [if_pos hfits, addChecked_of_lt hsum]
          dsimp only [Option.bind_some]
          rw [ih hstill, takeWhole_cons_of_le hdone hfits, hnext, totalBalance_cons,
            UInt64.add_assoc]
          simp
        · have hrest := @ih { state with left := state.left ++ [account] } hwithin
          rw [if_neg hfits, hrest, takeWhole_cons_of_lt hdone (UInt64.not_le.1 hfits)]
          simp

theorem firstRefusal?_cons {amount minStake : UInt64} {first : Account}
    (h : ¬Stake.passes (Stake.checkSplittable first amount minStake) = true)
    (rest : List Account) :
    firstRefusal? amount minStake (first :: rest)
      = some (.notBigEnoughToSplit first.address first.balance amount
          (Stake.minimalSize first.rentExemptReserve minStake)) := by
  rw [firstRefusal?, List.findSome?_cons, Stake.checkSplittable_of_not_passes h]

/-- The selection fails nowhere. -/
theorem checkedSelect_eq (amount minStake : UInt64) (accounts : List Account) :
    checkedSelect amount minStake accounts = some (selectSteps amount minStake accounts) := by
  have hgather : checkedGather amount ⟨0, [], []⟩ accounts = some
      ⟨totalBalance (takeWhole amount accounts).1, (takeWhole amount accounts).1.map wholeStep,
        (takeWhole amount accounts).2⟩ := by
    have hzero : (0 : UInt64) ≤ amount := UInt64.le_iff_toNat_le.2 (Nat.zero_le _)
    simpa using @checkedGather_eq amount ⟨0, [], []⟩ hzero accounts
  have hwithin := totalBalance_takeWhole_le amount accounts
  rw [checkedSelect, hgather, selectSteps]
  generalize takeWhole amount accounts = selection at hwithin ⊢
  obtain ⟨taken, left⟩ := selection
  dsimp only [Option.bind_eq_bind, Option.bind_some] at hwithin ⊢
  rw [subChecked_of_le hwithin]
  dsimp only [Option.bind_some]
  cases hfinal : finalSplit (amount - totalBalance taken) minStake left with
  | error e =>
      obtain ⟨hneeded, first, rest, rfl, hnone, rfl⟩ := finalSplit_eq_error_iff.1 hfinal
      rw [if_neg (by simp [hneeded]), List.find?_eq_none.2 hnone,
        firstRefusal?_cons (hnone first List.mem_cons_self)]
  | ok step? =>
      cases step? with
      | none => rw [if_pos (finalSplit_eq_none_iff.1 hfinal)]
      | some step =>
          obtain ⟨hneeded, before, account, after, rfl, hbefore, hpasses, rfl⟩ :=
            finalSplit_eq_some_iff.1 hfinal
          have hfound : (before ++ account :: after).find? (fun account => Stake.passes
              (Stake.checkSplittable account (amount - totalBalance taken) minStake))
              = some account :=
            List.find?_eq_some_iff_append.2 ⟨hpasses, before, after, rfl, by simpa using hbefore⟩
          -- the running total reaches the amount, and the account holds more than is split off
          have hsum : (totalBalance taken).toNat + (amount - totalBalance taken).toNat < 2 ^ 64 := by
            rw [UInt64.toNat_sub_of_le _ _ hwithin]
            rw [UInt64.le_iff_toNat_le] at hwithin
            have hlt := amount.toNat_lt
            omega
          have hholds : amount - totalBalance taken ≤ account.balance := by
            rw [UInt64.le_iff_toNat_le]
            have hsize := (Stake.passes_checkSplittable_iff.1 hpasses).1
            omega
          rw [if_neg (by simp [hneeded]), hfound]
          dsimp only
          rw [addChecked_of_lt hsum, subChecked_of_le hholds]
          rfl

/-- No sum and no difference leaves 64 bits while a plan is made. -/
theorem checkedPlan_eq (request : WithdrawRequest) (accounts : List Account)
    (context : WithdrawContext) :
    request.checkedPlan accounts context = some (request.plan accounts context) := by
  rw [checkedPlan, plan_eq, checkedSelect_eq]
  cases request.checkLockup context.config context.clock with
  | error e => rfl
  | ok =>
      dsimp only
      split
      · rfl
      · split
        · rfl
        · cases selectSteps request.remaining context.config.minimumStake
            (request.eligible context.bondsAuthority accounts) <;> rfl

/-! ## What a plan moves -/

/-- The steps of a selection move its total, which is at most the amount that was asked for. -/
theorem total_of_selectSteps {amount minStake total : UInt64} {accounts : List Account}
    {steps : List WithdrawStep} (h : selectSteps amount minStake accounts = .ok (steps, total)) :
    lamportsMoved steps = total.toNat ∧ total ≤ amount := by
  have hwithin := totalBalance_takeWhole_le amount accounts
  have htaken := totalBalance_takeWhole_toNat amount accounts
  rw [selectSteps] at h
  generalize takeWhole amount accounts = selection at hwithin htaken h
  obtain ⟨taken, left⟩ := selection
  dsimp only at hwithin htaken h
  split at h
  · cases h
  · cases h
    exact ⟨by rw [lamportsMoved_whole, htaken], hwithin⟩
  · rename_i step hstep
    cases h
    obtain ⟨-, -, account, -, -, -, -, rfl⟩ := finalSplit_eq_some_iff.1 hstep
    have hall : totalBalance taken + (amount - totalBalance taken) = amount := by
      apply UInt64.toNat_inj.1
      rw [UInt64.toNat_add, UInt64.toNat_sub_of_le _ _ hwithin]
      rw [UInt64.le_iff_toNat_le] at hwithin
      have hlt := amount.toNat_lt
      omega
    rw [hall]
    refine ⟨?_, UInt64.le_refl _⟩
    rw [lamportsMoved_append_split, ← htaken, UInt64.toNat_sub_of_le _ _ hwithin]
    rw [UInt64.le_iff_toNat_le] at hwithin
    omega

theorem isPlannedBy_planOf (request : WithdrawRequest) (context : WithdrawContext)
    (steps : List WithdrawStep) (total : UInt64) :
    request.isPlannedBy (request.planOf context steps total) = true := by
  simp [isPlannedBy, planOf]

/-- A plan for at most what remains is accepted by the request that it was made for. -/
theorem apply_planOf {request : WithdrawRequest} {total : UInt64}
    (hremaining : request.remaining ≠ 0) (htotal : total ≤ request.remaining)
    (context : WithdrawContext) (steps : List WithdrawStep) :
    ∃ next, request.apply (request.planOf context steps total) = .ok next ∧
      next.requestedAmount = request.requestedAmount ∧
      next.withdrawnAmount.toNat = request.withdrawnAmount.toNat + total.toNat ∧
      next.withdrawnAmount ≤ next.requestedAmount := by
  have hopen : request.withdrawnAmount < request.requestedAmount :=
    isFulfilled_eq_false_iff.1 (by simpa [isFulfilled] using hremaining)
  have hsplit := remaining_toNat (UInt64.le_of_lt hopen)
  have hlt := request.requestedAmount.toNat_lt
  rw [UInt64.le_iff_toNat_le] at htotal
  have hsum : (request.withdrawnAmount + total).toNat
      = request.withdrawnAmount.toNat + total.toNat := toNat_add_of_lt (by omega)
  have hwithin : request.withdrawnAmount + total ≤ request.requestedAmount := by
    rw [UInt64.le_iff_toNat_le]
    omega
  refine ⟨{ request with withdrawnAmount := request.withdrawnAmount + total }, ?_, rfl, hsum,
    hwithin⟩
  exact apply_eq_ok_iff.2
    ⟨isPlannedBy_planOf request context steps total, rfl, hopen, hsum.symm, hwithin, rfl⟩

/-- Planning leaves 64 bits nowhere.  The steps of a plan move its total, which is at most what
remains; the unchanged request accepts the plan, and then has withdrawn that much more and misses that
much less, so it is fulfilled just when the plan was for all that remained. -/
theorem plan_is_applicable (request : WithdrawRequest) (accounts : List Account)
    (context : WithdrawContext) :
    request.checkedPlan accounts context = some (request.plan accounts context) ∧
    ∀ plan, request.plan accounts context = .ok plan →
      lamportsMoved plan.steps = plan.totalAmount.toNat ∧
      plan.totalAmount ≤ request.remaining ∧
      ∃ next, request.apply plan = .ok next ∧
        next.withdrawnAmount = plan.withdrawnAfter ∧
        plan.withdrawnAfter.toNat = request.withdrawnAmount.toNat + plan.totalAmount.toNat ∧
        next.remaining.toNat + lamportsMoved plan.steps = request.remaining.toNat ∧
        (next.isFulfilled = true ↔ plan.totalAmount = request.remaining) := by
  refine ⟨checkedPlan_eq request accounts context, ?_⟩
  intro plan hplan
  obtain ⟨-, hremaining, -, steps, total, hselected, rfl⟩ := plan_eq_ok_iff.1 hplan
  obtain ⟨hmoved, htotal⟩ := total_of_selectSteps hselected
  obtain ⟨next, happly, hrequested, hwithdrawn, hwithin⟩ :=
    apply_planOf hremaining htotal context steps
  have hafter : (request.planOf context steps total).withdrawnAfter.toNat
      = request.withdrawnAmount.toNat + total.toNat := by
    rw [WithdrawPlan.withdrawnAfter, addSaturating_toNat]
    change min (request.withdrawnAmount.toNat + total.toNat) (2 ^ 64 - 1) = _
    have hlt := next.withdrawnAmount.toNat_lt
    omega
  have hleft := remaining_toNat hwithin
  have hbefore : request.remaining.toNat
      = request.requestedAmount.toNat - request.withdrawnAmount.toNat :=
    subSaturating_toNat _ _
  rw [hrequested, hwithdrawn] at hleft
  rw [UInt64.le_iff_toNat_le] at htotal
  refine ⟨hmoved, UInt64.le_iff_toNat_le.2 htotal, next, happly,
    UInt64.toNat_inj.1 (hwithdrawn.trans hafter.symm), hafter, ?_, ?_⟩
  · change next.remaining.toNat + lamportsMoved steps = _
    omega
  · change _ ↔ total = _
    rw [isFulfilled, decide_eq_true_eq, ← UInt64.toNat_inj, ← UInt64.toNat_inj, UInt64.toNat_zero]
    omega

/-- Two accounts hold more than 64 bits together; one is taken whole, the other is split, and all that
was requested is moved. -/
theorem plan_is_applicable_to_large_balances :
    let config : Config := ⟨Bytes32.zero, Bytes32.zero, 3, 0, 3, 0⟩
    let context : WithdrawContext :=
      ⟨config, ⟨4, 0, 0⟩, Bytes32.zero, Bytes32.zero, Bytes32.zero⟩
    let request : WithdrawRequest :=
      ⟨Bytes32.zero, Bytes32.zero, 1, 0, 18446744073709551615, 0, 0⟩
    let account (balance : UInt64) : Account :=
      ⟨Bytes32.zero, some Bytes32.zero, some Bytes32.zero, some Bytes32.zero, none, none, false,
        false, balance, 0, 7, none, .active⟩
    let accounts : List Account := [account 9223372036854775808, account 18446744073709551615]
    2 ^ 64 ≤ lamportsOf accounts ∧
    ∃ plan, request.plan accounts context = .ok plan ∧
      plan.steps = [.whole Bytes32.zero 9223372036854775808,
        .split Bytes32.zero 9223372036854775807 9223372036854775808] ∧
      lamportsMoved plan.steps = 18446744073709551615 ∧
      ∃ next, request.apply plan = .ok next ∧ next.isFulfilled = true := by
  intro config context request account accounts
  have howned : accounts.filter (fun account => Stake.passes
      (request.checkOwned context.bondsAuthority account)) = accounts := by
    decide +kernel
  have heligible : request.eligible context.bondsAuthority accounts = accounts := by
    rw [eligible, howned, List.mergeSort_of_pairwise (by decide)]
  have hselected : selectSteps request.remaining context.config.minimumStake
      (request.eligible context.bondsAuthority accounts)
      = .ok ([.whole Bytes32.zero 9223372036854775808,
        .split Bytes32.zero 9223372036854775807 9223372036854775808], 18446744073709551615) := by
    rw [heligible]
    decide +kernel
  have hsome : request.eligible context.bondsAuthority accounts ≠ [] := by
    rw [heligible]
    exact List.cons_ne_nil _ _
  have hplan := plan_eq_ok_iff.2 ⟨(rfl : request.checkLockup context.config context.clock = .ok ()),
    by decide, hsome, _, _, hselected, rfl⟩
  obtain ⟨hmoved, -, next, happly, -, -, -, hfulfilled⟩ :=
    (plan_is_applicable request accounts context).2 _ hplan
  exact ⟨by decide, _, hplan, rfl, hmoved, next, happly, hfulfilled.2 (by decide)⟩

end WithdrawRequest

end Surety
