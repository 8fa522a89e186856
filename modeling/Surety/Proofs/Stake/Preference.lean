import Mathlib.Tactic.Common
import Surety.Stake.Suitability

/-!
# The account that a claim is paid into

A claim is paid into the earliest unlocked account of the best stage for which there is one.  Accounts
that are locked, or in a stage that cannot take claims, have no say in it.

* `claimOrder` lists the stages, best first, and `preferred?` looks for the account stage by stage, without
  sorting anything.
* `exists_split_of_head?_mergeSort` says what comes first after sorting: the earliest entry of the least
  key, because entries of one key stay in their order.
* `claimTarget?_eq_preferred?` puts the two together; `preferred?_congr` says what the choice depends on.
* `claimTarget?_of_accounts` is the result.
-/

namespace Surety.Stake

/-! ## Looking stage by stage -/

/-- The stages of accounts that a claim can be paid into, best first. -/
def claimOrder : List Stage := [.initialized, .deactivated, .deactivating, .active, .delegating]

/-- Whether an account is in a stage and not locked. -/
def Account.isOpenAt (stage : Stage) (account : Account) : Bool :=
  !account.isLockedUp && account.stage == stage

/-- The earliest unlocked account of the first stage that has one. -/
def preferred? (accounts : List Account) : Option Account :=
  claimOrder.findSome? fun stage => accounts.find? (Account.isOpenAt stage)

/-- No claim can be paid into the account. -/
def Account.RefusesClaims (account : Account) : Prop :=
  account.isLockedUp = true ∨ account.stage = .uninitialized ∨ account.stage = .rewardsPool

section

variable {accounts other : List Account} {account : Account} {stage : Stage}

theorem Account.isOpenAt_iff :
    account.isOpenAt stage = true ↔ account.isLockedUp = false ∧ account.stage = stage := by
  rw [isOpenAt, Bool.and_eq_true, Bool.not_eq_true', beq_iff_eq]

theorem Account.refusesClaims_iff :
    account.RefusesClaims ↔ ∀ stage ∈ claimOrder, account.isOpenAt stage = false := by
  unfold RefusesClaims isOpenAt claimOrder
  cases account.isLockedUp <;> cases account.stage <;> simp

theorem preferred?_eq_none_iff :
    preferred? accounts = none ↔ ∀ account ∈ accounts, account.RefusesClaims := by
  simp only [preferred?, List.findSome?_eq_none_iff, List.find?_eq_none, Bool.not_eq_true,
    Account.refusesClaims_iff]
  exact ⟨fun h account haccount stage hstage => h stage hstage account haccount,
    fun h stage hstage account haccount => h account haccount stage hstage⟩

/-- The choice depends on the unlocked accounts of each stage and their order, and on nothing else. -/
theorem preferred?_congr
    (h : ∀ stage ∈ claimOrder,
      other.filter (Account.isOpenAt stage) = accounts.filter (Account.isOpenAt stage)) :
    preferred? other = preferred? accounts := by
  have hfind : ∀ stage ∈ claimOrder,
      other.find? (Account.isOpenAt stage) = accounts.find? (Account.isOpenAt stage) := by
    intro stage hstage
    rw [← List.head?_filter, ← List.head?_filter, h stage hstage]
  simp only [preferred?, claimOrder, List.forall_mem_cons] at hfind ⊢
  obtain ⟨hinitialized, hdeactivated, hdeactivating, hactive, hdelegating, -⟩ := hfind
  simp only [List.findSome?_cons, List.findSome?_nil, hinitialized, hdeactivated, hdeactivating, hactive,
    hdelegating]

/-- Accounts that refuse claims are in none of the stages. -/
theorem filter_isOpenAt_of_refusing (h : ∀ account ∈ accounts, account.RefusesClaims)
    (hstage : stage ∈ claimOrder) : accounts.filter (Account.isOpenAt stage) = [] :=
  List.filter_eq_nil_iff.2 fun account haccount =>
    Bool.eq_false_iff.1 (Account.refusesClaims_iff.1 (h account haccount) stage hstage)

end

/-! ## The first of the sorted candidates -/

/-- What comes first after sorting by a key stood behind greater keys only, and before no smaller one. -/
theorem exists_split_of_head?_mergeSort {α : Type} {key : α → Nat} {entries : List α} {first : α}
    (h : (entries.mergeSort fun a b => decide (key a ≤ key b)).head? = some first) :
    ∃ before after, entries = before ++ first :: after ∧ (∀ a ∈ before, key first < key a) ∧
      ∀ a ∈ after, key first ≤ key a := by
  have htrans : ∀ a b c : α, decide (key a ≤ key b) = true → decide (key b ≤ key c) = true →
      decide (key a ≤ key c) = true := fun a b c hab hbc =>
    decide_eq_true (Nat.le_trans (of_decide_eq_true hab) (of_decide_eq_true hbc))
  have htotal : ∀ a b : α, (decide (key a ≤ key b) || decide (key b ≤ key a)) = true := by
    intro a b
    rw [Bool.or_eq_true, decide_eq_true_eq, decide_eq_true_eq]
    exact Nat.le_total _ _
  induction entries generalizing first with
  | nil =>
      rw [List.mergeSort_nil] at h
      cases h
  | cons entry rest ih =>
      -- sorting puts the entry behind the smaller ones of the sorted rest
      obtain ⟨smaller, others, hsorted, hrest, hsmaller⟩ :=
        List.mergeSort_cons htrans htotal entry rest
      rw [hsorted] at h
      cases smaller with
      | nil =>
          obtain rfl : entry = first := Option.some.inj h
          have hordered := List.pairwise_mergeSort htrans htotal (entry :: rest)
          rw [hsorted, List.nil_append, List.pairwise_cons] at hordered
          refine ⟨[], rest, rfl, fun a ha => absurd ha List.not_mem_nil, fun a ha => ?_⟩
          rw [List.nil_append] at hrest
          exact of_decide_eq_true (hordered.1 a (hrest ▸ List.mem_mergeSort.2 ha))
      | cons least smaller =>
          obtain rfl : least = first := Option.some.inj h
          obtain ⟨before, after, rfl, hbefore, hafter⟩ := ih (by rw [hrest]; rfl)
          have hless : key least < key entry := by
            simpa using hsmaller least List.mem_cons_self
          exact ⟨entry :: before, after, rfl, List.forall_mem_cons.2 ⟨hless, hbefore⟩, hafter⟩

/-- An account with its rank, when a claim can be paid into it. -/
def Account.candidate? (account : Account) : Option (Nat × Account) :=
  if account.isLockedUp then none
  else account.stage.claimRank?.map fun rank => (rank, account)

section

variable {accounts : List Account} {account : Account} {stage : Stage} {rank : Nat}
  {candidate : Nat × Account}

theorem claimRank?_eq_some_iff : stage.claimRank? = some rank ↔ claimOrder[rank]? = some stage := by
  constructor
  · intro h
    cases stage <;> cases h <;> rfl
  · intro h
    match rank, h with
    | 0, h | 1, h | 2, h | 3, h | 4, h => cases h; rfl
    | rank + 5, h => simp [claimOrder] at h

theorem Account.candidate?_eq_some_iff :
    account.candidate? = some candidate ↔
      account.isLockedUp = false ∧ account.stage.claimRank? = some candidate.1 ∧
        account = candidate.2 := by
  obtain ⟨rank, chosen⟩ := candidate
  unfold candidate?
  cases account.isLockedUp with
  | true => simp
  | false => simp [and_left_comm]

theorem claimCandidates_eq (accounts : List Account) :
    claimCandidates accounts = accounts.filterMap Account.candidate? := rfl

/-- An account is open at the stage of a rank when it is a candidate of that rank. -/
theorem Account.any_candidate?_eq (hrank : stage.claimRank? = some rank) (account : Account) :
    (account.candidate?.any fun candidate => candidate.1 == rank) = account.isOpenAt stage := by
  rw [Bool.eq_iff_iff, Option.any_eq_true, isOpenAt_iff]
  constructor
  · rintro ⟨candidate, hcandidate, hsame⟩
    obtain ⟨hunlocked, hown, -⟩ := candidate?_eq_some_iff.1 hcandidate
    rw [beq_iff_eq.1 hsame] at hown
    have hstages := (claimRank?_eq_some_iff.1 hown).symm.trans (claimRank?_eq_some_iff.1 hrank)
    exact ⟨hunlocked, Option.some.inj hstages⟩
  · rintro ⟨hunlocked, rfl⟩
    exact ⟨(rank, account), candidate?_eq_some_iff.2 ⟨hunlocked, hrank, rfl⟩, beq_self_eq_true rank⟩

/-- The earliest unlocked account of a stage is the earliest candidate of its rank. -/
theorem find?_isOpenAt (hrank : stage.claimRank? = some rank) (accounts : List Account) :
    accounts.find? (Account.isOpenAt stage)
      = ((claimCandidates accounts).find? fun candidate => candidate.1 == rank).map (·.2) := by
  rw [claimCandidates_eq, List.find?_filterMap, funext (Account.any_candidate?_eq hrank)]
  cases hfound : accounts.find? (Account.isOpenAt stage) with
  | none => rfl
  | some account =>
      obtain ⟨hopen, -⟩ := List.find?_eq_some_iff_append.1 hfound
      obtain ⟨hunlocked, hstage⟩ := Account.isOpenAt_iff.1 hopen
      have hcandidate : account.candidate? = some (rank, account) :=
        Account.candidate?_eq_some_iff.2 ⟨hunlocked, hstage ▸ hrank, rfl⟩
      rw [Option.bind_some, hcandidate, Option.map_some]

/-- Without candidates there is no account to be preferred. -/
theorem preferred?_of_no_candidates (h : claimCandidates accounts = []) :
    preferred? accounts = none := by
  refine List.findSome?_eq_none_iff.2 fun stage hstage => ?_
  obtain ⟨rank, hrank⟩ := List.mem_iff_getElem?.1 hstage
  rw [find?_isOpenAt (claimRank?_eq_some_iff.2 hrank), h]
  rfl

/-- The earliest candidate of the least rank is preferred. -/
theorem preferred?_of_candidates {before after : List (Nat × Account)}
    (h : claimCandidates accounts = before ++ candidate :: after)
    (hbefore : ∀ earlier ∈ before, candidate.1 < earlier.1)
    (hafter : ∀ later ∈ after, candidate.1 ≤ later.1) : preferred? accounts = some candidate.2 := by
  have hmem : candidate ∈ accounts.filterMap Account.candidate? := by
    rw [← claimCandidates_eq, h]
    exact List.mem_append_right _ List.mem_cons_self
  obtain ⟨account, -, hcandidate⟩ := List.mem_filterMap.1 hmem
  obtain ⟨-, hrank, rfl⟩ := Account.candidate?_eq_some_iff.1 hcandidate
  obtain ⟨hbound, hplace⟩ := List.getElem?_eq_some_iff.1 (claimRank?_eq_some_iff.1 hrank)
  refine List.findSome?_eq_some_iff.2 ⟨claimOrder.take candidate.1, candidate.2.stage,
    claimOrder.drop (candidate.1 + 1), ?_, ?_, fun stage hstage => ?_⟩
  · rw [← hplace, List.getElem_cons_drop, List.take_append_drop]
  · -- the candidates before it are of worse ranks
    have hfound : (claimCandidates accounts).find? (fun other => other.1 == candidate.1)
        = some candidate :=
      List.find?_eq_some_iff_append.2 ⟨beq_self_eq_true _, before, after, h,
        fun other hother => by simp [Nat.ne_of_gt (hbefore other hother)]⟩
    rw [find?_isOpenAt hrank, hfound, Option.map_some]
  · -- no candidate is of a better rank
    obtain ⟨better, hbetter, rfl⟩ := List.mem_take_iff_getElem.1 hstage
    have hleast : ∀ other ∈ claimCandidates accounts, candidate.1 ≤ other.1 := by
      rw [h, List.forall_mem_append, List.forall_mem_cons]
      exact ⟨fun other hother => Nat.le_of_lt (hbefore other hother), Nat.le_refl _, hafter⟩
    have hnone : (claimCandidates accounts).find? (fun other => other.1 == better) = none := by
      refine List.find?_eq_none.2 fun other hother => ?_
      have hle := hleast other hother
      rw [beq_iff_eq]
      omega
    rw [find?_isOpenAt (claimRank?_eq_some_iff.2 (List.getElem?_eq_getElem (by omega))), hnone,
      Option.map_none]

/-- Sorting the candidates by rank and taking the first finds what looking stage by stage finds. -/
theorem claimTarget?_eq_preferred? (accounts : List Account) :
    claimTarget? accounts = (preferred? accounts).map (·.address) := by
  rw [claimTarget?]
  cases hfirst : ((claimCandidates accounts).mergeSort fun a b => decide (a.1 ≤ b.1)).head? with
  | none =>
      have hempty : claimCandidates accounts = [] := by
        have hlength := congrArg List.length (List.head?_eq_none_iff.1 hfirst)
        rwa [List.length_mergeSort, List.length_nil, List.length_eq_zero_iff] at hlength
      rw [preferred?_of_no_candidates hempty, Option.map_none, Option.map_none]
  | some first =>
      obtain ⟨before, after, hsplit, hbefore, hafter⟩ :=
        @exists_split_of_head?_mergeSort _ Prod.fst _ _ hfirst
      rw [preferred?_of_candidates hsplit hbefore hafter, Option.map_some, Option.map_some]

end

/-! ## The choice -/

/-- There is no account for a claim exactly when all are locked or in a stage that takes none.  Otherwise it
is the earliest unlocked account of the first stage in the order that has one.  Inserting accounts that
refuse claims anywhere does not change the choice; nor does any other rearrangement that leaves the
unlocked accounts of each stage in their order. -/
theorem claimTarget?_of_accounts (accounts : List Account) :
    (claimTarget? accounts = none ↔ ∀ account ∈ accounts, account.RefusesClaims) ∧
    (∀ address : Address, claimTarget? accounts = some address ↔
      ∃ better stage worse before chosen after,
        claimOrder = better ++ stage :: worse ∧ accounts = before ++ chosen :: after ∧
        chosen.address = address ∧ chosen.isOpenAt stage = true ∧
        (∀ account ∈ before, account.isOpenAt stage = false) ∧
        ∀ other ∈ better, ∀ account ∈ accounts, account.isOpenAt other = false) ∧
    (∀ front extra back : List Account, accounts = front ++ back →
      (∀ account ∈ extra, account.RefusesClaims) →
        claimTarget? (front ++ extra ++ back) = claimTarget? accounts) ∧
    ∀ other : List Account, (∀ stage ∈ claimOrder,
        other.filter (Account.isOpenAt stage) = accounts.filter (Account.isOpenAt stage)) →
      claimTarget? other = claimTarget? accounts := by
  have hcongr : ∀ other : List Account, (∀ stage ∈ claimOrder,
        other.filter (Account.isOpenAt stage) = accounts.filter (Account.isOpenAt stage)) →
      claimTarget? other = claimTarget? accounts := by
    intro other hother
    rw [claimTarget?_eq_preferred?, claimTarget?_eq_preferred?, preferred?_congr hother]
  refine ⟨?_, fun address => ?_, fun front extra back haccounts hextra => ?_, hcongr⟩
  · rw [claimTarget?_eq_preferred?, Option.map_eq_none_iff, preferred?_eq_none_iff]
  · rw [claimTarget?_eq_preferred?, Option.map_eq_some_iff]
    simp only [preferred?, List.findSome?_eq_some_iff, List.find?_eq_some_iff_append,
      List.find?_eq_none, Bool.not_eq_true', Bool.not_eq_true]
    constructor
    · rintro ⟨chosen, ⟨better, stage, worse, horder, ⟨hopen, before, after, hsplit, hbefore⟩,
        hbetter⟩, haddress⟩
      exact ⟨better, stage, worse, before, chosen, after, horder, hsplit, haddress, hopen, hbefore,
        hbetter⟩
    · rintro ⟨better, stage, worse, before, chosen, after, horder, hsplit, haddress, hopen, hbefore,
        hbetter⟩
      exact ⟨chosen, ⟨better, stage, worse, horder, ⟨hopen, before, after, hsplit, hbefore⟩,
        hbetter⟩, haddress⟩
  · refine hcongr _ fun stage hstage => ?_
    rw [haccounts, List.filter_append, List.filter_append, List.filter_append,
      filter_isOpenAt_of_refusing hextra hstage, List.append_nil]

/-- Of two deactivated accounts the earlier one is chosen, although a locked and an active one stand in
front of it; a locked and an uninitialized one inserted between them are passed over, and exchanging the
two halves makes no difference. -/
theorem claimTarget?_of_mixed_accounts :
    let address (n : UInt8) : Address := ⟨List.replicate 32 n, List.length_replicate⟩
    let account (n : UInt8) (locked : Bool) (stage : Stage) : Account :=
      ⟨address n, none, none, none, none, none, false, locked, 0, 0, 0, none, stage⟩
    let front : List Account := [account 1 true .initialized, account 2 false .active]
    let back : List Account := [account 3 false .deactivated, account 4 false .deactivated]
    let extra : List Account := [account 5 true .deactivated, account 6 false .uninitialized]
    (∀ refusing ∈ extra, refusing.RefusesClaims) ∧
      claimTarget? (front ++ back) = some (address 3) ∧
      claimTarget? (front ++ extra ++ back) = some (address 3) ∧
      claimTarget? (back ++ front) = some (address 3) := by
  intro address account front back extra
  have hextra : ∀ refusing ∈ extra, refusing.RefusesClaims := by
    simp [extra, account, Account.RefusesClaims]
  obtain ⟨-, hchosen, hinsert, hrearrange⟩ := claimTarget?_of_accounts (front ++ back)
  have htarget : claimTarget? (front ++ back) = some (address 3) :=
    (hchosen (address 3)).2 ⟨[.initialized], .deactivated, [.deactivating, .active, .delegating], front,
      account 3 false .deactivated, [account 4 false .deactivated], rfl, rfl, rfl, rfl, by decide +kernel,
      by decide +kernel⟩
  refine ⟨hextra, htarget, ?_, ?_⟩
  · rw [hinsert front extra back rfl hextra, htarget]
  · rw [hrearrange (back ++ front) (by decide +kernel), htarget]

end Surety.Stake
