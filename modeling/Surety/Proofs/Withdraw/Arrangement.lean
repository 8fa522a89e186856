import Surety.Proofs.Withdraw.Ranking

/-!
# What a plan does not see of the given accounts

A plan is made from the accounts of the bond, ranked by balance and then by address.  Neither their order
in the given list shows in it, nor the accounts between them, which belong to somebody else, are
delegated elsewhere or are locked.  A refusal is as little affected: an account that cannot be split is
named as the first of the ranking, not of the list.

* `plan_owned` drops the other accounts, `plan_of_perm` puts the accounts into another order.
* `plan_of_owned_perm` is the result for two lists.

Without any account of the bond the refusal is that of the first account in the list, so there the
order does show; lists of this kind are left out.
-/

namespace Surety

namespace WithdrawRequest

open Stake (Account)

/-- The given accounts that belong to the bond of a request, in the given order. -/
def owned (request : WithdrawRequest) (bondsAuthority : Address) (accounts : List Account) :
    List Account :=
  accounts.filter fun account =>
    Stake.passes (Stake.checkOwnedByBond account request.voteAccount bondsAuthority)

section

variable {request : WithdrawRequest} {bondsAuthority : Address} {accounts other ranked : List Account}
  {context : WithdrawContext}

@[simp] theorem owned_owned :
    request.owned bondsAuthority (request.owned bondsAuthority accounts)
      = request.owned bondsAuthority accounts := by
  rw [owned, owned, List.filter_filter]
  simp only [Bool.and_self]

theorem eligible_perm_owned :
    (request.eligible bondsAuthority accounts).Perm (request.owned bondsAuthority accounts) :=
  List.mergeSort_perm _ _

theorem eligible_ne_nil_iff :
    request.eligible bondsAuthority accounts ≠ [] ↔ request.owned bondsAuthority accounts ≠ [] := by
  rw [← List.isEmpty_eq_false_iff, eligible_perm_owned.isEmpty_eq, List.isEmpty_eq_false_iff]

/-- Only accounts that belong to the bond are looked at. -/
theorem eligible_owned :
    request.eligible bondsAuthority (request.owned bondsAuthority accounts)
      = request.eligible bondsAuthority accounts :=
  congrArg (List.mergeSort · smallerFirst) owned_owned

/-- A ranking of accounts is one of the same accounts in any order. -/
theorem Ranking.of_perm (hperm : other.Perm accounts)
    (h : Ranking request bondsAuthority other ranked) :
    Ranking request bondsAuthority accounts ranked where
  owned := h.owned.trans (hperm.filter _)
  ordered := h.ordered

theorem eligible_of_perm (hdistinct : (accounts.map (·.address)).Nodup)
    (hperm : other.Perm accounts) :
    request.eligible bondsAuthority other = request.eligible bondsAuthority accounts :=
  ((ranking_eligible request bondsAuthority other).of_perm hperm).eq hdistinct
    (ranking_eligible request bondsAuthority accounts)

/-- The given list shows in a plan only through the ranked accounts of the bond, as long as there are
any. -/
theorem plan_of_eligible_eq
    (hsame : request.eligible context.bondsAuthority other
      = request.eligible context.bondsAuthority accounts)
    (hsome : request.eligible context.bondsAuthority accounts ≠ []) :
    request.plan other context = request.plan accounts context := by
  have hopen : ¬(request.eligible context.bondsAuthority accounts).isEmpty = true := by
    simpa using hsome
  rw [plan_eq, plan_eq, hsame, if_neg hopen, if_neg hopen]

/-- Accounts that do not belong to the bond change nothing. -/
theorem plan_owned (hsome : request.owned context.bondsAuthority accounts ≠ []) :
    request.plan (request.owned context.bondsAuthority accounts) context
      = request.plan accounts context :=
  plan_of_eligible_eq eligible_owned (eligible_ne_nil_iff.2 hsome)

/-- The order of the accounts changes nothing. -/
theorem plan_of_perm (hdistinct : (accounts.map (·.address)).Nodup) (hperm : other.Perm accounts)
    (hsome : request.owned context.bondsAuthority accounts ≠ []) :
    request.plan other context = request.plan accounts context :=
  plan_of_eligible_eq (eligible_of_perm hdistinct hperm) (eligible_ne_nil_iff.2 hsome)

/-- Two lists with the same accounts of the bond, in whatever order and among whatever other accounts,
have the same plan or the same refusal. -/
theorem plan_of_owned_perm (hdistinct : (accounts.map (·.address)).Nodup)
    (hperm : (request.owned context.bondsAuthority other).Perm
      (request.owned context.bondsAuthority accounts))
    (hsome : request.owned context.bondsAuthority accounts ≠ []) :
    request.plan other context = request.plan accounts context := by
  have hsome' : request.owned context.bondsAuthority other ≠ [] := by
    rwa [← List.isEmpty_eq_false_iff, hperm.isEmpty_eq, List.isEmpty_eq_false_iff]
  have hdistinct' : ((request.owned context.bondsAuthority accounts).map (·.address)).Nodup :=
    hdistinct.sublist (List.filter_sublist.map _)
  calc request.plan other context
      = request.plan (request.owned context.bondsAuthority other) context := (plan_owned hsome').symm
    _ = request.plan (request.owned context.bondsAuthority accounts) context :=
        plan_of_perm hdistinct' hperm (by rwa [owned_owned])
    _ = request.plan accounts context := plan_owned hsome

/-- Two accounts of one balance are too small to be split; whichever comes first, and whatever stands
around them, the refusal names the one with the smaller address. -/
theorem plan_of_equal_balances :
    let config : Config := ⟨Bytes32.zero, Bytes32.zero, 3, 0, 3, 0⟩
    let context : WithdrawContext :=
      ⟨config, ⟨4, 0, 0⟩, Bytes32.zero, Bytes32.zero, Bytes32.zero⟩
    let request : WithdrawRequest := ⟨Bytes32.zero, Bytes32.zero, 1, 0, 1500000000, 0, 0⟩
    let address (n : UInt8) : Address := ⟨List.replicate 32 n, List.length_replicate⟩
    let account (n staker voter : UInt8) (locked : Bool) : Account :=
      ⟨address n, some (address staker), some Bytes32.zero, some (address voter), none, none, false,
        locked, 2000000000, 0, 7, none, .active⟩
    let accounts : List Account := [account 1 0 0 false, account 2 0 0 false]
    let other : List Account := [account 3 9 0 false, account 2 0 0 false, account 4 0 9 false,
      account 5 0 0 true, account 1 0 0 false]
    (accounts.map (·.address)).Nodup ∧
      (request.owned context.bondsAuthority other).Perm
        (request.owned context.bondsAuthority accounts) ∧
      request.owned context.bondsAuthority accounts ≠ [] ∧
      request.plan other context
        = .error (.notBigEnoughToSplit (address 1) 2000000000 1500000000 1000000007) := by
  intro config context request address account accounts other
  have hdistinct : (accounts.map (·.address)).Nodup := by decide
  have howned : request.owned context.bondsAuthority accounts = accounts := by decide +kernel
  have hperm : (request.owned context.bondsAuthority other).Perm
      (request.owned context.bondsAuthority accounts) := by
    decide +kernel
  have hsome : request.owned context.bondsAuthority accounts ≠ [] := by
    rw [howned]
    exact List.cons_ne_nil _ _
  have heligible : request.eligible context.bondsAuthority accounts = accounts := by
    change (request.owned context.bondsAuthority accounts).mergeSort smallerFirst = accounts
    rw [howned, List.mergeSort_of_pairwise (by decide)]
  have hselected : selectSteps request.remaining context.config.minimumStake accounts
      = .error (.notBigEnoughToSplit (address 1) 2000000000 1500000000 1000000007) := by
    decide +kernel
  refine ⟨hdistinct, hperm, hsome, (plan_of_owned_perm hdistinct hperm hsome).trans ?_⟩
  rw [plan_of_open (by decide) (by decide) (eligible_ne_nil_iff.2 hsome), heligible, hselected]
  rfl

end

end WithdrawRequest

end Surety
