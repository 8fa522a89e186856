import Surety.Proofs.Stake.Grouping
import Surety.Proofs.Stake.Order

/-!
# What consolidation plans

The accounts of a group are ranked, larger balances first and equal balances by address.  The first of
them takes the others that share its lockup, and a group without such another account is left alone.
With different addresses there is one ranking of each group, so neither the order of the given accounts
nor the order in which the groups are visited shows in the plans.

* `Account.Candidate` is what an account of a group looks like, `MergeRanking` the order of a group;
  `MergeRanking.eq` says that there is one, `mergeRanking_mergeGroup` that planning works on it.
* `mergesOf` is the plan of a ranked group, if there is one; `mergePlan?_toList` says that the checks of
  a merge leave only the lockup to be compared.
* `filter_planMerges` finds the plan of a group among all plans, `planMerges_disjoint` says that no
  account is in two of them, `plans_of_perm` that no order matters.
* `merges_of_groups` is the result for all plans.

Accounts of a group that share a lockup with each other and not with the first are in no plan; that is
shown in `Surety.Proofs.Stake.Coverage`.
-/

namespace Surety.Stake

/-! ## The order of a group -/

/-- An account that can be merged with others of its group: it belongs to the bonds authority, is not
locked, is delegated to the vote account of the group and rests in its stage. -/
structure Account.Candidate (account : Account) (bondsAuthority : Address) (key : MergeKey) : Prop where
  staker : account.staker = some bondsAuthority
  withdrawer : account.withdrawer = some bondsAuthority
  unlocked : account.isLockedUp = false
  voter : account.voter = some key.voter
  stage : account.stage = key.stage
  resting : account.stage = .active ∨ account.stage = .deactivated

/-- The accounts of a group, larger balances first and equal balances by address. -/
structure MergeRanking (bondsAuthority : Address) (accounts : List Account) (key : MergeKey)
    (ranked : List Account) : Prop where
  nodup : ranked.Nodup
  mem_iff : ∀ account, account ∈ ranked ↔
    account ∈ accounts ∧ account.Candidate bondsAuthority key
  ordered : ranked.Pairwise fun a b =>
    b.balance < a.balance ∨ a.balance = b.balance ∧ a.address ≤ b.address

section

variable {bondsAuthority : Address} {accounts other ranked : List Account} {account a b : Account}
  {key : MergeKey}

theorem Account.Candidate.isTransient (h : account.Candidate bondsAuthority key) :
    account.isTransient = false :=
  Account.isTransient_of_resting h.resting

theorem mergeKey?_eq_some_iff_candidate :
    mergeKey? bondsAuthority account = some key ↔ account.Candidate bondsAuthority key := by
  rw [mergeKey?_eq_some_iff, Account.isOwnedBy_iff]
  constructor
  · rintro ⟨⟨hstaker, hwithdrawer⟩, hunlocked, -, hresting, hvoter, hstage⟩
    exact ⟨hstaker, hwithdrawer, hunlocked, hvoter, hstage, hresting⟩
  · intro h
    exact ⟨⟨h.staker, h.withdrawer⟩, h.unlocked, h.isTransient, h.resting, h.voter, h.stage⟩

theorem largerFirst_iff :
    largerFirst a b = true ↔
      b.balance < a.balance ∨ a.balance = b.balance ∧ a.address ≤ b.address := by
  simp [largerFirst]

theorem mergeRanking_mergeGroup (bondsAuthority : Address) (key : MergeKey)
    (hdistinct : (accounts.map (·.address)).Nodup) :
    MergeRanking bondsAuthority accounts key (mergeGroup bondsAuthority accounts key) where
  nodup := (List.mergeSort_perm _ _).nodup_iff.2 ((hdistinct.of_map _).filter _)
  mem_iff _ := by rw [mem_mergeGroup_iff, mergeKey?_eq_some_iff_candidate]
  ordered :=
    have := strictTotalOrder_gt
    pairwise_before_mergeSort (· > ·) (fun _ _ => largerFirst_iff) _

/-- A ranking is one of the same accounts in any order. -/
theorem MergeRanking.of_perm (hperm : other.Perm accounts)
    (h : MergeRanking bondsAuthority other key ranked) :
    MergeRanking bondsAuthority accounts key ranked where
  nodup := h.nodup
  mem_iff account := by rw [h.mem_iff, hperm.mem_iff]
  ordered := h.ordered

/-- Accounts with different addresses are ranked in one way. -/
theorem MergeRanking.eq {ranked' : List Account} (hdistinct : (accounts.map (·.address)).Nodup)
    (h : MergeRanking bondsAuthority accounts key ranked)
    (h' : MergeRanking bondsAuthority accounts key ranked') : ranked = ranked' := by
  have hperm : ranked.Perm ranked' := by
    rw [List.perm_ext_iff_of_nodup h.nodup h'.nodup]
    intro account
    rw [h.mem_iff, h'.mem_iff]
  have := strictTotalOrder_gt
  have hlisted : ∀ account ∈ ranked, account ∈ accounts := fun account haccount =>
    ((h.mem_iff account).1 haccount).1
  exact eq_of_perm_of_before (· > ·) hdistinct hlisted hperm h.ordered h'.ordered

/-- Accounts that are all of one group and in its order already are the group. -/
theorem mergeGroup_eq_self (hmembers : groupMembers bondsAuthority accounts key = accounts)
    (hordered : accounts.Pairwise fun a b => largerFirst a b = true) :
    mergeGroup bondsAuthority accounts key = accounts := by
  change (groupMembers bondsAuthority accounts key).mergeSort largerFirst = accounts
  rw [hmembers, List.mergeSort_of_pairwise hordered]

theorem mergeGroup_of_perm (hdistinct : (accounts.map (·.address)).Nodup) (hperm : other.Perm accounts)
    (key : MergeKey) :
    mergeGroup bondsAuthority other key = mergeGroup bondsAuthority accounts key := by
  have hdistinct' : (other.map (·.address)).Nodup := (hperm.map _).nodup_iff.2 hdistinct
  exact ((mergeRanking_mergeGroup bondsAuthority key hdistinct').of_perm hperm).eq hdistinct
    (mergeRanking_mergeGroup bondsAuthority key hdistinct)

theorem MergeRanking.addresses_nodup (hdistinct : (accounts.map (·.address)).Nodup)
    (h : MergeRanking bondsAuthority accounts key ranked) : (ranked.map (·.address)).Nodup := by
  rw [List.nodup_map_iff_inj_on h.nodup]
  intro a ha b hb haddress
  exact List.inj_on_of_nodup_map hdistinct ((h.mem_iff a).1 ha).1 ((h.mem_iff b).1 hb).1 haddress

end

/-! ## The plan of a group -/

/-- Of two different accounts of a group, one can be merged into the other when they share a lockup. -/
theorem passes_checkMergeable_iff {bondsAuthority : Address} {key : MergeKey}
    {destination source : Account} (hdestination : destination.Candidate bondsAuthority key)
    (hsource : source.Candidate bondsAuthority key)
    (haddress : destination.address ≠ source.address) :
    passes (checkMergeable destination source) = true ↔ source.lockup = destination.lockup := by
  have hstage : destination.stage = source.stage := hdestination.stage.trans hsource.stage.symm
  have hvoter : destination.voter = source.voter := hdestination.voter.trans hsource.voter.symm
  have hstaker : destination.staker = source.staker :=
    hdestination.staker.trans hsource.staker.symm
  have hwithdrawer : destination.withdrawer = source.withdrawer :=
    hdestination.withdrawer.trans hsource.withdrawer.symm
  rw [passes_iff, checkMergeable_eq_ok_iff]
  constructor
  · rintro ⟨-, -, -, -, -, -, hlockup, -, -⟩
    exact hlockup.symm
  · intro hlockup
    exact ⟨haddress, hdestination.isTransient, hsource.isTransient, hdestination.resting, hstage,
      hvoter, hlockup.symm, hstaker, hwithdrawer⟩

/-- The plan of a ranked group: its first account takes the others with its lockup.  Without such
another account there is no plan. -/
def mergesOf : List Account → List MergePlan
  | [] => []
  | first :: others =>
      if ∃ other ∈ others, other.lockup = first.lockup then
        [⟨first.address, (others.filter fun other => other.lockup = first.lockup).map (·.address)⟩]
      else []

section

variable {bondsAuthority : Address} {accounts other : List Account} {key : MergeKey}

theorem mergePlan?_toList {ranked : List Account} (hdistinct : (accounts.map (·.address)).Nodup)
    (h : MergeRanking bondsAuthority accounts key ranked) :
    (mergePlan? ranked).toList = mergesOf ranked := by
  have haddresses := h.addresses_nodup hdistinct
  cases ranked with
  | nil => rfl
  | cons first others =>
      -- the accounts of a group agree in all that is checked except the lockup
      have hsame : (others.filter fun source => passes (checkMergeable first source))
          = others.filter fun other => other.lockup = first.lockup := by
        refine List.filter_congr fun source hsource => ?_
        have hfirst := ((h.mem_iff first).1 List.mem_cons_self).2
        have hmember := ((h.mem_iff source).1 (List.mem_cons_of_mem _ hsource)).2
        have haddress : first.address ≠ source.address := by
          rw [List.map_cons, List.nodup_cons] at haddresses
          intro hequal
          exact haddresses.1 (hequal ▸ List.mem_map_of_mem hsource)
        rw [Bool.eq_iff_iff, passes_checkMergeable_iff hfirst hmember haddress, decide_eq_true_eq]
      rw [mergePlan?, mergesOf, hsame]
      split
      · rename_i hnone
        rw [if_neg]
        · rfl
        · rintro ⟨other, hother, hlockup⟩
          have hmem : other ∈ others.filter fun other => other.lockup = first.lockup :=
            List.mem_filter.2 ⟨hother, decide_eq_true hlockup⟩
          rw [hnone] at hmem
          cases hmem
      · rename_i sources hsome
        rw [if_pos]
        · rfl
        · obtain ⟨other, hother⟩ := List.exists_mem_of_ne_nil _ hsome
          obtain ⟨hmem, hlockup⟩ := List.mem_filter.1 hother
          exact ⟨other, hmem, of_decide_eq_true hlockup⟩

/-! ## All plans -/

variable {plan plan' : MergePlan}

/-- The accounts that the plan of a group names are in the group. -/
theorem key_of_mem_named (hdistinct : (accounts.map (·.address)).Nodup) {account : Account}
    {address : Address} (haccount : account ∈ accounts) (haddress : account.address = address)
    (hplan : mergePlan? (mergeGroup bondsAuthority accounts key) = some plan)
    (hnamed : address ∈ plan.named) : account.Candidate bondsAuthority key := by
  obtain ⟨member, hmember, hsame⟩ := mem_of_mergePlan? hplan hnamed
  obtain ⟨hlisted, hkey⟩ := mem_mergeGroup_iff.1 hmember
  obtain rfl : account = member :=
    List.inj_on_of_nodup_map hdistinct haccount hlisted (haddress.trans hsame.symm)
  exact mergeKey?_eq_some_iff_candidate.1 hkey

/-- An account is in one group at most. -/
theorem Account.Candidate.key_eq {account : Account} {key' : MergeKey}
    (h : account.Candidate bondsAuthority key) (h' : account.Candidate bondsAuthority key') :
    key = key' :=
  Option.some.inj ((mergeKey?_eq_some_iff_candidate.2 h).symm.trans
    (mergeKey?_eq_some_iff_candidate.2 h'))

/-- No account is named by two plans. -/
theorem planMerges_disjoint (hdistinct : (accounts.map (·.address)).Nodup) :
    (planMerges accounts bondsAuthority).Pairwise fun a b => a.named.Disjoint b.named := by
  have hsymm : ∀ {a b : MergePlan}, a.named.Disjoint b.named → b.named.Disjoint a.named :=
    fun hab _ hb ha => hab ha hb
  rw [planMerges, (List.mergeSort_perm _ _).pairwise_iff hsymm, List.pairwise_filterMap]
  refine (mergeKeys_nodup bondsAuthority accounts).imp ?_
  intro key key' hdifferent plan hplan plan' hplan' address hnamed hnamed'
  -- an account that both plans name would have the keys of both groups
  obtain ⟨account, hmember, haddress⟩ := mem_of_mergePlan? hplan hnamed
  have haccount := (mem_mergeGroup_iff.1 hmember).1
  exact hdifferent ((key_of_mem_named hdistinct haccount haddress hplan hnamed).key_eq
    (key_of_mem_named hdistinct haccount haddress hplan' hnamed'))

theorem planMerges_destinations_nodup (hdistinct : (accounts.map (·.address)).Nodup) :
    ((planMerges accounts bondsAuthority).map (·.destination)).Nodup := by
  rw [List.Nodup, List.pairwise_map]
  refine (planMerges_disjoint hdistinct).imp ?_
  intro a b hdisjoint hsame
  exact hdisjoint List.mem_cons_self (hsame ▸ List.mem_cons_self)

/-- A plan names no account twice. -/
theorem named_nodup (hdistinct : (accounts.map (·.address)).Nodup)
    (h : plan ∈ planMerges accounts bondsAuthority) : plan.named.Nodup := by
  obtain ⟨key, -, hplan⟩ := mem_planMerges_iff.1 h
  have haddresses :=
    (mergeRanking_mergeGroup bondsAuthority key hdistinct).addresses_nodup hdistinct
  obtain ⟨destination, others, hgroup, -, hdestination, hsources⟩ := mergePlan?_eq_some_iff.1 hplan
  rw [hgroup, List.map_cons] at haddresses
  rw [MergePlan.named, hdestination, hsources]
  exact haddresses.sublist ((List.filter_sublist.map _).cons_cons _)

/-- The plans with a destination in a group are the plan of the group. -/
theorem filter_planMerges {ranked : List Account} (hdistinct : (accounts.map (·.address)).Nodup)
    (h : MergeRanking bondsAuthority accounts key ranked) :
    ((planMerges accounts bondsAuthority).filter fun plan =>
        decide (plan.destination ∈ ranked.map (·.address))) = mergesOf ranked := by
  have hranked : ranked = mergeGroup bondsAuthority accounts key :=
    h.eq hdistinct (mergeRanking_mergeGroup bondsAuthority key hdistinct)
  -- a plan with its destination in the group was made for the group, and one plan was made for it
  have hmem : ∀ plan, plan ∈ (planMerges accounts bondsAuthority).filter (fun plan =>
      decide (plan.destination ∈ ranked.map (·.address))) ↔ mergePlan? ranked = some plan := by
    intro plan
    rw [List.mem_filter, decide_eq_true_eq, mem_planMerges_iff]
    constructor
    · rintro ⟨⟨key', -, hplan⟩, hdestination⟩
      obtain ⟨account, hmember, haddress⟩ := List.mem_map.1 hdestination
      obtain ⟨haccount, hcandidate⟩ := (h.mem_iff account).1 hmember
      have hcandidate' :=
        key_of_mem_named hdistinct haccount haddress hplan List.mem_cons_self
      rw [hranked, hcandidate.key_eq hcandidate', hplan]
    · intro hplan
      obtain ⟨account, hmember, haddress⟩ := mem_of_mergePlan? hplan List.mem_cons_self
      obtain ⟨haccount, hcandidate⟩ := (h.mem_iff account).1 hmember
      refine ⟨⟨key, ?_, hranked ▸ hplan⟩, List.mem_map.2 ⟨account, hmember, haddress⟩⟩
      exact mem_mergeKeys_iff.2 ⟨account, haccount, mergeKey?_eq_some_iff_candidate.2 hcandidate⟩
  have hnodup : ((planMerges accounts bondsAuthority).filter fun plan =>
      decide (plan.destination ∈ ranked.map (·.address))).Nodup :=
    ((planMerges_destinations_nodup hdistinct).of_map _).filter _
  rw [← mergePlan?_toList hdistinct h]
  cases hplan : mergePlan? ranked with
  | none =>
      refine List.eq_nil_iff_forall_not_mem.2 fun plan hin => ?_
      rw [hmem, hplan] at hin
      cases hin
  | some plan =>
      refine List.perm_singleton.1 ((List.perm_ext_iff_of_nodup hnodup (List.nodup_singleton _)).2 ?_)
      intro plan'
      rw [hmem, hplan, List.mem_singleton, Option.some.injEq, eq_comm]

/-- Every plan is that of a ranked group. -/
theorem ranking_of_mem_planMerges (hdistinct : (accounts.map (·.address)).Nodup)
    (h : plan ∈ planMerges accounts bondsAuthority) :
    ∃ key ranked, MergeRanking bondsAuthority accounts key ranked ∧ plan ∈ mergesOf ranked := by
  obtain ⟨key, -, hplan⟩ := mem_planMerges_iff.1 h
  have hranking := mergeRanking_mergeGroup bondsAuthority key hdistinct
  refine ⟨key, _, hranking, ?_⟩
  rw [← mergePlan?_toList hdistinct hranking, hplan]
  exact List.mem_singleton_self plan

/-- Sorted plans are in the order of their destinations. -/
theorem mergeSort_destination_ordered (plans : List MergePlan) :
    (plans.mergeSort fun a b => decide (a.destination ≤ b.destination)).Pairwise
      fun a b => a.destination ≤ b.destination := by
  have hsorted := @List.pairwise_mergeSort MergePlan
    (fun a b => decide (a.destination ≤ b.destination))
    (fun a b c hab hbc =>
      decide_eq_true (Bytes32.le_trans (of_decide_eq_true hab) (of_decide_eq_true hbc)))
    (fun a b => by
      rw [Bool.or_eq_true, decide_eq_true_eq, decide_eq_true_eq]
      exact Bytes32.le_total a.destination b.destination)
  exact (hsorted plans).imp of_decide_eq_true

/-! ## Independence of orders -/

/-- The plans of a table whose groups are visited in its order. -/
def GroupTable.plans (table : GroupTable) : List MergePlan :=
  (table.filterMap fun entry => mergePlan? (entry.2.mergeSort largerFirst)).mergeSort
    fun a b => decide (a.destination ≤ b.destination)

theorem mergeKeys_perm (hperm : other.Perm accounts) :
    (mergeKeys bondsAuthority other).Perm (mergeKeys bondsAuthority accounts) := by
  rw [List.perm_ext_iff_of_nodup (mergeKeys_nodup _ _) (mergeKeys_nodup _ _)]
  intro key
  rw [mem_mergeKeys_iff, mem_mergeKeys_iff]
  simp only [hperm.mem_iff]

/-- A filled table whose groups are visited in any order has the plans of the accounts. -/
theorem plans_of_perm {table : GroupTable} (hdistinct : (accounts.map (·.address)).Nodup)
    (hother : other.Perm accounts) (htable : table.Perm (groupTable bondsAuthority other)) :
    table.plans = planMerges accounts bondsAuthority := by
  have hgroups : (table.filterMap fun entry => mergePlan? (entry.2.mergeSort largerFirst)).Perm
      ((mergeKeys bondsAuthority accounts).filterMap fun key =>
        mergePlan? (mergeGroup bondsAuthority accounts key)) := by
    refine (htable.filterMap _).trans ?_
    rw [groupTable_eq, List.filterMap_map]
    refine (List.Perm.of_eq ?_).trans ((mergeKeys_perm hother).filterMap _)
    refine List.filterMap_congr fun key _ => ?_
    exact congrArg mergePlan? (mergeGroup_of_perm hdistinct hother key)
  have hperm : table.plans.Perm (planMerges accounts bondsAuthority) :=
    (List.mergeSort_perm _ _).trans (hgroups.trans (List.mergeSort_perm _ _).symm)
  refine List.Perm.eq_of_pairwise ?_ (mergeSort_destination_ordered _)
    (mergeSort_destination_ordered _) hperm
  -- plans with one destination are one plan, so the order of destinations decides
  intro a b ha hb hab hba
  exact List.inj_on_of_nodup_map (planMerges_destinations_nodup hdistinct) (hperm.mem_iff.1 ha) hb
    (Bytes32.le_antisymm hab hba)

/-- The plans for accounts with different addresses: every group with another account of the lockup of
its first one has one plan, no other plans exist, no address is named twice, the plans are in the order of
their destinations, and they are the same for the accounts and the groups in any order. -/
theorem merges_of_groups (hdistinct : (accounts.map (·.address)).Nodup) :
    (∀ key, ∃ ranked, MergeRanking bondsAuthority accounts key ranked ∧
      ((planMerges accounts bondsAuthority).filter fun plan =>
        decide (plan.destination ∈ ranked.map (·.address))) = mergesOf ranked) ∧
    (∀ plan ∈ planMerges accounts bondsAuthority,
      ∃ key ranked, MergeRanking bondsAuthority accounts key ranked ∧ plan ∈ mergesOf ranked) ∧
    ((planMerges accounts bondsAuthority).flatMap MergePlan.named).Nodup ∧
    (planMerges accounts bondsAuthority).Pairwise (fun a b => a.destination ≤ b.destination) ∧
    ∀ other : List Account, other.Perm accounts →
      planMerges other bondsAuthority = planMerges accounts bondsAuthority ∧
      ∀ table : GroupTable, table.Perm (groupTable bondsAuthority other) →
        table.plans = planMerges accounts bondsAuthority := by
  refine ⟨?groups, ?plans, ?named, mergeSort_destination_ordered _, ?orders⟩
  case groups =>
    intro key
    have hranking := mergeRanking_mergeGroup bondsAuthority key hdistinct
    exact ⟨_, hranking, filter_planMerges hdistinct hranking⟩
  case plans =>
    intro plan hplan
    exact ranking_of_mem_planMerges hdistinct hplan
  case named =>
    rw [List.nodup_flatMap]
    exact ⟨fun plan hplan => named_nodup hdistinct hplan, planMerges_disjoint hdistinct⟩
  case orders =>
    intro other hother
    have hdistinct' : (other.map (·.address)).Nodup := (hother.map _).nodup_iff.2 hdistinct
    have hfilled : (groupTable bondsAuthority other).plans = planMerges other bondsAuthority :=
      plans_of_perm hdistinct' (.refl other) (.refl _)
    refine ⟨hfilled.symm.trans (plans_of_perm hdistinct hother (.refl _)), ?_⟩
    intro table htable
    exact plans_of_perm hdistinct hother htable

/-- An active group whose second account has another lockup, a deactivated group with equal balances, and
a group of one account.  The accounts may come in reverse, and the groups too. -/
theorem merges_of_three_groups :
    let address (n : UInt8) : Address := ⟨List.replicate 32 n, List.length_replicate⟩
    let account (n voter : UInt8) (balance lockedUntil : UInt64) (stage : Stage) : Account :=
      ⟨address n, some Bytes32.zero, some Bytes32.zero, some (address voter), none, none, false, false,
        balance, 0, 7, some ⟨0, lockedUntil, Bytes32.zero⟩, stage⟩
    let accounts : List Account :=
      [account 1 11 10 1 .deactivated, account 4 10 5000 1 .active, account 6 12 9000 1 .active,
        account 3 10 4000 2 .active, account 2 11 10 1 .deactivated, account 5 10 3000 1 .active]
    let plans : List MergePlan := [⟨address 1, [address 2]⟩, ⟨address 4, [address 5]⟩]
    (accounts.map (·.address)).Nodup ∧ planMerges accounts Bytes32.zero = plans ∧
      (plans.flatMap MergePlan.named).Nodup ∧ planMerges accounts.reverse Bytes32.zero = plans ∧
      GroupTable.plans (groupTable Bytes32.zero accounts.reverse).reverse = plans := by
  intro address account accounts plans
  have hdistinct : (accounts.map (·.address)).Nodup := by decide
  -- each group is in its order already, and so are the plans
  have hranked : ∀ key ∈ mergeKeys Bytes32.zero accounts,
      (groupMembers Bytes32.zero accounts key).Pairwise fun a b => largerFirst a b = true := by
    decide +kernel
  have hmade : ((mergeKeys Bytes32.zero accounts).filterMap fun key =>
      mergePlan? (groupMembers Bytes32.zero accounts key)) = plans := by
    decide +kernel
  have hplans : planMerges accounts Bytes32.zero = plans := by
    have hgroups : ∀ key ∈ mergeKeys Bytes32.zero accounts,
        mergePlan? (mergeGroup Bytes32.zero accounts key)
          = mergePlan? (groupMembers Bytes32.zero accounts key) := fun key hkey =>
      congrArg mergePlan? (List.mergeSort_of_pairwise (hranked key hkey))
    rw [planMerges, List.filterMap_congr hgroups, hmade]
    exact List.mergeSort_of_pairwise (by decide)
  obtain ⟨-, -, hnamed, -, horders⟩ := @merges_of_groups Bytes32.zero accounts hdistinct
  obtain ⟨hreverse, htables⟩ := horders accounts.reverse accounts.reverse_perm
  refine ⟨hdistinct, hplans, hplans ▸ hnamed, hreverse.trans hplans, ?_⟩
  exact (htables _ (List.reverse_perm _)).trans hplans

end

end Surety.Stake
