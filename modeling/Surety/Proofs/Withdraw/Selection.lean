import Surety.Proofs.Stake.Ownership
import Surety.Proofs.Stake.Size
import Surety.Proofs.Withdraw.Step

/-!
# The accounts that a withdraw plan names

A plan takes stake from accounts of the given list that belong to the bond of the request, and from
no others.

* `mem_eligible_iff` says which accounts are considered, `takeWhole_sublist` that those taken and
  those left over are among them.
* `finalSplit_eq_none_iff`, `finalSplit_eq_some_iff` and `finalSplit_eq_error_iff` are the three ways in
  which the account to split is looked for.
* `plan_eq_ok_iff` opens a plan, `owned_of_mem_steps` is the result for its steps.

How much is taken from an account is not treated here; see `Surety.Proofs.Withdraw.Conservation`.
-/

namespace Surety

namespace WithdrawRequest

open Stake (Account)

theorem mem_eligible_iff {request : WithdrawRequest} {bondsAuthority : Address}
    {accounts : List Account} {account : Account} :
    account ∈ request.eligible bondsAuthority accounts ↔
      account ∈ accounts ∧ request.checkOwned bondsAuthority account = .ok () := by
  rw [eligible, List.mem_mergeSort, List.mem_filter, Stake.passes_iff]

@[simp] theorem takeWhole_nil (needed : UInt64) : takeWhole needed [] = ([], []) := by
  rw [takeWhole]

theorem takeWhole_zero (accounts : List Account) : takeWhole 0 accounts = ([], []) := by
  cases accounts with
  | nil => rw [takeWhole]
  | cons account rest => rw [takeWhole, if_pos rfl]

/-- An account that fits into what is missing is taken. -/
theorem takeWhole_cons_of_le {needed : UInt64} {account : Account} (hneeded : needed ≠ 0)
    (hfits : account.balance ≤ needed) (rest : List Account) :
    takeWhole needed (account :: rest)
      = (account :: (takeWhole (needed - account.balance) rest).1,
          (takeWhole (needed - account.balance) rest).2) := by
  rw [takeWhole, if_neg hneeded, if_pos hfits]

/-- An account that does not fit is left over. -/
theorem takeWhole_cons_of_lt {needed : UInt64} {account : Account} (hneeded : needed ≠ 0)
    (hover : needed < account.balance) (rest : List Account) :
    takeWhole needed (account :: rest)
      = ((takeWhole needed rest).1, account :: (takeWhole needed rest).2) := by
  rw [takeWhole, if_neg hneeded, if_neg (UInt64.not_le.2 hover)]

/-- The accounts that are taken and those that are left over keep their order. -/
theorem takeWhole_sublist (needed : UInt64) (accounts : List Account) :
    (takeWhole needed accounts).1.Sublist accounts ∧
      (takeWhole needed accounts).2.Sublist accounts := by
  induction accounts generalizing needed with
  | nil => simp
  | cons account rest ih =>
      by_cases hneeded : needed = 0
      · rw [hneeded, takeWhole_zero]
        exact ⟨List.nil_sublist _, List.nil_sublist _⟩
      · by_cases hfits : account.balance ≤ needed
        · obtain ⟨htaken, hleft⟩ := ih (needed - account.balance)
          rw [takeWhole_cons_of_le hneeded hfits]
          exact ⟨htaken.cons_cons account, hleft.cons account⟩
        · obtain ⟨htaken, hleft⟩ := ih needed
          rw [takeWhole_cons_of_lt hneeded (UInt64.not_le.1 hfits)]
          exact ⟨htaken.cons account, hleft.cons_cons account⟩

section

variable {needed minStake : UInt64} {left : List Account}

theorem finalSplit_of_done (hneeded : needed = 0 ∨ left = []) :
    finalSplit needed minStake left = .ok none := by
  unfold finalSplit
  rcases hneeded with hdone | rfl
  · rw [if_pos hdone]
  · split <;> rfl

/-- Without an account to split, the refusal is that of the first account. -/
theorem finalSplit_cons (hneeded : needed ≠ 0) (first : Account) (rest : List Account) :
    finalSplit needed minStake (first :: rest) =
      match (first :: rest).find? fun account =>
          Stake.passes (Stake.checkSplittable account needed minStake) with
      | some account => .ok (some (splitStep needed account))
      | none => .error (.notBigEnoughToSplit first.address first.balance needed
          (Stake.minimalSize first.rentExemptReserve minStake)) := by
  rw [finalSplit, if_neg hneeded]
  cases hfound : (first :: rest).find? fun account =>
      Stake.passes (Stake.checkSplittable account needed minStake) with
  | some account => rfl
  | none =>
      have hfirst := List.find?_eq_none.1 hfound first List.mem_cons_self
      rw [Stake.checkSplittable_of_not_passes hfirst]

/-- Nothing is split when nothing is missing or nothing was left over. -/
theorem finalSplit_eq_none_iff :
    finalSplit needed minStake left = .ok none ↔ needed = 0 ∨ left = [] := by
  constructor
  · intro h
    by_contra hopen
    obtain ⟨hneeded, hleft⟩ := not_or.1 hopen
    obtain ⟨first, rest, rfl⟩ := List.exists_cons_of_ne_nil hleft
    rw [finalSplit_cons hneeded] at h
    split at h <;> cases h
  · exact finalSplit_of_done

/-- What is missing is split off the first account that can be split. -/
theorem finalSplit_eq_some_iff {step : WithdrawStep} :
    finalSplit needed minStake left = .ok (some step) ↔
      needed ≠ 0 ∧ ∃ before account after, left = before ++ account :: after ∧
        (∀ other ∈ before, ¬Stake.passes (Stake.checkSplittable other needed minStake) = true) ∧
        Stake.passes (Stake.checkSplittable account needed minStake) = true ∧
        step = splitStep needed account := by
  by_cases hdone : needed = 0 ∨ left = []
  · rw [finalSplit_of_done hdone]
    constructor
    · intro h
      cases h
    · rintro ⟨hneeded, before, account, after, rfl, -⟩
      simp [hneeded] at hdone
  · obtain ⟨hneeded, hleft⟩ := not_or.1 hdone
    obtain ⟨first, rest, rfl⟩ := List.exists_cons_of_ne_nil hleft
    rw [finalSplit_cons hneeded]
    constructor
    · intro h
      split at h
      · rename_i account hfound
        cases h
        obtain ⟨hpasses, before, after, hsplit, hbefore⟩ := List.find?_eq_some_iff_append.1 hfound
        exact ⟨hneeded, before, account, after, hsplit, by simpa using hbefore, hpasses, rfl⟩
      · cases h
    · rintro ⟨-, before, account, after, hsplit, hbefore, hpasses, rfl⟩
      have hfound : (first :: rest).find? (fun account =>
          Stake.passes (Stake.checkSplittable account needed minStake)) = some account :=
        List.find?_eq_some_iff_append.2 ⟨hpasses, before, after, hsplit, by simpa using hbefore⟩
      rw [hfound]

/-- When no account can be split, the first one that was left over tells why. -/
theorem finalSplit_eq_error_iff {e : Error} :
    finalSplit needed minStake left = .error e ↔
      needed ≠ 0 ∧ ∃ first rest, left = first :: rest ∧
        (∀ other ∈ left, ¬Stake.passes (Stake.checkSplittable other needed minStake) = true) ∧
        e = .notBigEnoughToSplit first.address first.balance needed
          (Stake.minimalSize first.rentExemptReserve minStake) := by
  by_cases hdone : needed = 0 ∨ left = []
  · rw [finalSplit_of_done hdone]
    constructor
    · intro h
      cases h
    · rintro ⟨hneeded, first, rest, rfl, -⟩
      simp [hneeded] at hdone
  · obtain ⟨hneeded, hleft⟩ := not_or.1 hdone
    obtain ⟨first, rest, rfl⟩ := List.exists_cons_of_ne_nil hleft
    rw [finalSplit_cons hneeded]
    constructor
    · intro h
      split at h
      · cases h
      · rename_i hnone
        cases h
        exact ⟨hneeded, first, rest, rfl, List.find?_eq_none.1 hnone, rfl⟩
    · rintro ⟨-, _, _, hsame, hnone, rfl⟩
      rw [List.find?_eq_none.2 hnone]
      cases hsame
      rfl

end

/-- Every step takes from one of the accounts that are selected from. -/
theorem mem_of_selectSteps {needed minStake total : UInt64} {accounts : List Account}
    {steps : List WithdrawStep} {step : WithdrawStep}
    (h : selectSteps needed minStake accounts = .ok (steps, total)) (hstep : step ∈ steps) :
    ∃ account ∈ accounts, step.stakeAccount = account.address := by
  obtain ⟨htaken, hleft⟩ := takeWhole_sublist needed accounts
  -- the accounts taken whole are named with and without a split behind them
  have hwhole : step ∈ (takeWhole needed accounts).1.map wholeStep →
      ∃ account ∈ accounts, step.stakeAccount = account.address := by
    intro hmem
    obtain ⟨account, haccount, rfl⟩ := List.mem_map.1 hmem
    exact ⟨account, htaken.subset haccount, rfl⟩
  unfold selectSteps at h
  dsimp only at h
  split at h
  · cases h
  · cases h
    exact hwhole hstep
  · rename_i last hlast
    cases h
    rcases List.mem_append.1 hstep with hmem | hmem
    · exact hwhole hmem
    · obtain ⟨-, before, account, after, hsplit, -, -, rfl⟩ := finalSplit_eq_some_iff.1 hlast
      rw [List.mem_singleton.1 hmem]
      exact ⟨account, hleft.subset (by simp [hsplit]), rfl⟩

/-- A plan is made once the lockup is over, when something remains and some account belongs to the
bond; it holds the steps that are selected from these accounts. -/
theorem plan_eq_ok_iff {request : WithdrawRequest} {accounts : List Account}
    {context : WithdrawContext} {plan : WithdrawPlan} :
    request.plan accounts context = .ok plan ↔
      request.checkLockup context.config context.clock = .ok () ∧ request.remaining ≠ 0 ∧
        request.eligible context.bondsAuthority accounts ≠ [] ∧
        ∃ steps total, selectSteps request.remaining context.config.minimumStake
            (request.eligible context.bondsAuthority accounts) = .ok (steps, total) ∧
          plan = request.planOf context steps total := by
  rw [plan_eq]
  constructor
  · intro h
    split at h
    · cases h
    · rename_i hlockup
      split at h
      · cases h
      · rename_i hremaining
        split at h
        · cases h
        · rename_i hsome
          split at h
          · cases h
          · rename_i steps total hselected
            cases h
            exact ⟨hlockup, hremaining, by simpa using hsome, steps, total, hselected, rfl⟩
  · rintro ⟨hlockup, hremaining, hsome, steps, total, hselected, rfl⟩
    rw [hlockup]
    dsimp only
    rw [if_neg hremaining, if_neg (by simpa using hsome), hselected]

/-- Every step of a plan takes from an account of the list that belongs to the bond. -/
theorem owned_of_mem_steps {request : WithdrawRequest} {accounts : List Account}
    {context : WithdrawContext} {plan : WithdrawPlan} {step : WithdrawStep}
    (h : request.plan accounts context = .ok plan) (hstep : step ∈ plan.steps) :
    ∃ account ∈ accounts, request.checkOwned context.bondsAuthority account = .ok () ∧
      step.stakeAccount = account.address := by
  obtain ⟨-, -, -, steps, total, hselected, rfl⟩ := plan_eq_ok_iff.1 h
  obtain ⟨account, heligible, haddress⟩ := mem_of_selectSteps hselected hstep
  obtain ⟨haccount, howned⟩ := mem_eligible_iff.1 heligible
  exact ⟨account, haccount, howned, haddress⟩

end WithdrawRequest

end Surety
