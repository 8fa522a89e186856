import Surety.Proofs.Stake.Consolidation

/-!
# Which mergeable accounts a plan takes

A group has one plan at most, and it takes the accounts that share the lockup of the first account of
the group.  Two accounts that could be merged into each other share a lockup, so at least one of them is
taken when it is the lockup of the first account; when it is another one, both stay as they are and can
still be merged afterwards.

* `candidates_of_mergeable` puts two mergeable accounts of the bonds authority into one group.
* `mem_mergesOf_iff` opens the plan of a ranked group, `mem_mergesOf_of_named` finds the plans that name
  an account of it.
* `isSource_iff` says which accounts are taken, `lockup_of_isNamed` that no plan names the others.
* `isSource_of_mergeable` is the result for two accounts, `mergeable_accounts_left` two that are left.
-/

namespace Surety.Stake

/-- Some plan merges the account at an address into another one. -/
def IsSource (plans : List MergePlan) (address : Address) : Prop :=
  ∃ plan ∈ plans, address ∈ plan.sources

/-- Some plan names the account at an address, as its destination or as a source. -/
def IsNamed (plans : List MergePlan) (address : Address) : Prop :=
  ∃ plan ∈ plans, address ∈ plan.named

section

variable {bondsAuthority voter : Address} {accounts others : List Account}
  {account first a b : Account} {key : MergeKey} {plan : MergePlan}

/-- An account of the bonds authority that can be merged with another is in a group with it, which both
share the lockup in. -/
theorem candidates_of_mergeable (howned : a.isOwnedBy bondsAuthority = true)
    (hvoter : a.voter = some voter) (hunlocked : a.isLockedUp = false)
    (hunlocked' : b.isLockedUp = false) (hmergeable : checkMergeable a b = .ok ()) :
    a.Candidate bondsAuthority ⟨voter, a.stage⟩ ∧ b.Candidate bondsAuthority ⟨voter, a.stage⟩ ∧
      a.address ≠ b.address ∧ a.lockup = b.lockup := by
  obtain ⟨hstaker, hwithdrawer⟩ := Account.isOwnedBy_iff.1 howned
  obtain ⟨haddress, -, -, hresting, hstage, hvoters, hlockup, hstakers, hwithdrawers⟩ :=
    checkMergeable_eq_ok_iff.1 hmergeable
  refine ⟨⟨hstaker, hwithdrawer, hunlocked, hvoter, rfl, hresting⟩, ?_, haddress, hlockup⟩
  exact ⟨hstakers ▸ hstaker, hwithdrawers ▸ hwithdrawer, hunlocked', hvoters ▸ hvoter, hstage.symm,
    hstage ▸ hresting⟩

/-- The plan of a ranked group, as long as its first account has something to take. -/
theorem mem_mergesOf_iff :
    plan ∈ mergesOf (first :: others) ↔
      (∃ other ∈ others, other.lockup = first.lockup) ∧ plan.destination = first.address ∧
        plan.sources = (others.filter fun other => other.lockup = first.lockup).map (·.address) := by
  obtain ⟨destination, sources⟩ := plan
  rw [mergesOf]
  split
  · rename_i hsome
    simp [hsome]
  · rename_i hnone
    simp [hnone]

/-- The plans of all groups that name an account of a group are those of the group. -/
theorem mem_mergesOf_of_named {ranked : List Account} (hdistinct : (accounts.map (·.address)).Nodup)
    (hranking : MergeRanking bondsAuthority accounts key ranked) (haccount : account ∈ ranked)
    (hplan : plan ∈ planMerges accounts bondsAuthority) (hnamed : account.address ∈ plan.named) :
    plan ∈ mergesOf ranked := by
  obtain ⟨hlisted, hcandidate⟩ := (hranking.mem_iff account).1 haccount
  obtain ⟨key', -, hmade⟩ := mem_planMerges_iff.1 hplan
  -- the group that the plan was made for has the account too, so it is this group
  obtain rfl : key = key' :=
    hcandidate.key_eq (key_of_mem_named hdistinct hlisted rfl hmade hnamed)
  have hgroup := mergeRanking_mergeGroup bondsAuthority key hdistinct
  rw [hranking.eq hdistinct hgroup, ← mergePlan?_toList hdistinct hgroup, hmade]
  exact List.mem_singleton_self plan

/-- The plan of a group is one of all plans. -/
theorem mem_planMerges_of_mergesOf {ranked : List Account}
    (hdistinct : (accounts.map (·.address)).Nodup)
    (hranking : MergeRanking bondsAuthority accounts key ranked) (h : plan ∈ mergesOf ranked) :
    plan ∈ planMerges accounts bondsAuthority := by
  rw [← filter_planMerges hdistinct hranking] at h
  exact List.mem_of_mem_filter h

/-- A plan names no account of a group whose lockup is not that of the first account. -/
theorem lockup_of_isNamed (hdistinct : (accounts.map (·.address)).Nodup)
    (hranking : MergeRanking bondsAuthority accounts key (first :: others))
    (haccount : account ∈ first :: others)
    (h : IsNamed (planMerges accounts bondsAuthority) account.address) :
    account.lockup = first.lockup := by
  obtain ⟨plan, hplan, hnamed⟩ := h
  have hmade := mem_mergesOf_of_named hdistinct hranking haccount hplan hnamed
  obtain ⟨-, hdestination, hsources⟩ := mem_mergesOf_iff.1 hmade
  -- addresses tell the accounts of the group apart
  have hsame : ∀ other ∈ first :: others, account.address = other.address → account = other :=
    fun other hother haddress =>
      List.inj_on_of_nodup_map (hranking.addresses_nodup hdistinct) haccount hother haddress
  rw [MergePlan.named, hdestination, hsources, List.mem_cons, List.mem_map] at hnamed
  rcases hnamed with haddress | ⟨source, hsource, haddress⟩
  · rw [hsame first List.mem_cons_self haddress]
  · obtain ⟨hmember, hlockup⟩ := List.mem_filter.1 hsource
    rw [hsame source (List.mem_cons_of_mem _ hmember) haddress.symm]
    exact of_decide_eq_true hlockup

/-- The accounts of a group that are taken are those behind the first account that share its lockup. -/
theorem isSource_iff (hdistinct : (accounts.map (·.address)).Nodup)
    (hranking : MergeRanking bondsAuthority accounts key (first :: others))
    (haccount : account ∈ first :: others) :
    IsSource (planMerges accounts bondsAuthority) account.address ↔
      account ≠ first ∧ account.lockup = first.lockup := by
  have haddresses := hranking.addresses_nodup hdistinct
  constructor
  · rintro ⟨plan, hplan, hsource⟩
    have hnamed : account.address ∈ plan.named := List.mem_cons_of_mem _ hsource
    refine ⟨?_, lockup_of_isNamed hdistinct hranking haccount ⟨plan, hplan, hnamed⟩⟩
    -- the first account is the destination of its plan, and no plan names it twice
    rintro rfl
    have hmade := mem_mergesOf_of_named hdistinct hranking haccount hplan hnamed
    obtain ⟨-, hdestination, -⟩ := mem_mergesOf_iff.1 hmade
    exact (List.nodup_cons.1 (named_nodup hdistinct hplan)).1 (hdestination ▸ hsource)
  · rintro ⟨hbehind, hlockup⟩
    have hother : account ∈ others := (List.mem_cons.1 haccount).resolve_left hbehind
    have hmade : (⟨first.address,
        (others.filter fun other => other.lockup = first.lockup).map (·.address)⟩ : MergePlan)
          ∈ mergesOf (first :: others) :=
      mem_mergesOf_iff.2 ⟨⟨account, hother, hlockup⟩, rfl, rfl⟩
    refine ⟨_, mem_planMerges_of_mergesOf hdistinct hranking hmade, ?_⟩
    exact List.mem_map_of_mem (List.mem_filter.2 ⟨hother, decide_eq_true hlockup⟩)

/-- Of two accounts of the bonds authority that can be merged, at least one is merged into another exactly
when both have the lockup of the first account of their group; when they have another lockup, no plan
names either of them. -/
theorem isSource_of_mergeable (hdistinct : (accounts.map (·.address)).Nodup)
    (ha : a ∈ accounts) (hb : b ∈ accounts) (howned : a.isOwnedBy bondsAuthority = true)
    (hvoter : a.voter = some voter) (hunlocked : a.isLockedUp = false)
    (hunlocked' : b.isLockedUp = false) (hmergeable : checkMergeable a b = .ok ()) :
    ∃ first others, MergeRanking bondsAuthority accounts ⟨voter, a.stage⟩ (first :: others) ∧
      a ∈ first :: others ∧ b ∈ first :: others ∧ a.lockup = b.lockup ∧
      ((IsSource (planMerges accounts bondsAuthority) a.address ∨
          IsSource (planMerges accounts bondsAuthority) b.address) ↔ a.lockup = first.lockup) ∧
      (a.lockup ≠ first.lockup →
        ¬IsNamed (planMerges accounts bondsAuthority) a.address ∧
          ¬IsNamed (planMerges accounts bondsAuthority) b.address) := by
  obtain ⟨hcandidate, hcandidate', haddress, hlockup⟩ :=
    candidates_of_mergeable howned hvoter hunlocked hunlocked' hmergeable
  have hranking := mergeRanking_mergeGroup bondsAuthority ⟨voter, a.stage⟩ hdistinct
  have hmem := (hranking.mem_iff a).2 ⟨ha, hcandidate⟩
  have hmem' := (hranking.mem_iff b).2 ⟨hb, hcandidate'⟩
  obtain ⟨first, others, hranked⟩ := List.exists_cons_of_ne_nil (List.ne_nil_of_mem hmem)
  rw [hranked] at hranking hmem hmem'
  refine ⟨first, others, hranking, hmem, hmem', hlockup, ?_, ?_⟩
  · rw [isSource_iff hdistinct hranking hmem, isSource_iff hdistinct hranking hmem']
    constructor
    · rintro (⟨-, hsame⟩ | ⟨-, hsame⟩)
      · exact hsame
      · exact hlockup.trans hsame
    · intro hsame
      -- the first account is one of the two at most
      by_cases hfirst : a = first
      · refine .inr ⟨?_, hlockup.symm.trans hsame⟩
        rintro rfl
        exact haddress (congrArg _ hfirst)
      · exact .inl ⟨hfirst, hsame⟩
  · intro hother
    refine ⟨fun hnamed => ?_, fun hnamed => ?_⟩
    · exact hother (lockup_of_isNamed hdistinct hranking hmem hnamed)
    · exact hother (hlockup.trans (lockup_of_isNamed hdistinct hranking hmem' hnamed))

/-- Of three accounts with the lockup of the largest one, the two smaller ones can be merged and both are
merged into the largest; an account of another lockup is passed over. -/
theorem isSource_of_smaller_accounts :
    let address (n : UInt8) : Address := ⟨List.replicate 32 n, List.length_replicate⟩
    let account (n : UInt8) (balance lockedUntil : UInt64) : Account :=
      ⟨address n, some Bytes32.zero, some Bytes32.zero, some Bytes32.zero, none, none, false, false,
        balance, 0, 7, some ⟨0, lockedUntil, Bytes32.zero⟩, .active⟩
    let accounts : List Account :=
      [account 3 9000 1, account 4 8000 2, account 1 5000 1, account 2 5000 1]
    let a := account 1 5000 1
    let b := account 2 5000 1
    (accounts.map (·.address)).Nodup ∧ a ∈ accounts ∧ b ∈ accounts ∧
      a.isOwnedBy Bytes32.zero = true ∧ a.voter = some Bytes32.zero ∧ a.isLockedUp = false ∧
      b.isLockedUp = false ∧ checkMergeable a b = .ok () ∧
      MergeRanking Bytes32.zero accounts ⟨Bytes32.zero, .active⟩ accounts ∧
      (IsSource (planMerges accounts Bytes32.zero) a.address ∨
        IsSource (planMerges accounts Bytes32.zero) b.address) := by
  intro address account accounts a b
  have hdistinct : (accounts.map (·.address)).Nodup := by decide
  have ha : a ∈ accounts := by decide
  have hb : b ∈ accounts := by decide
  have howned : a.isOwnedBy Bytes32.zero = true := rfl
  have hmergeable : checkMergeable a b = .ok () := by decide +kernel
  -- the accounts are in their order already
  have hgroup : mergeGroup Bytes32.zero accounts ⟨Bytes32.zero, .active⟩ = accounts :=
    mergeGroup_eq_self (by decide +kernel) (by decide +kernel)
  have hranking : MergeRanking Bytes32.zero accounts ⟨Bytes32.zero, .active⟩ accounts := by
    have hsorted := mergeRanking_mergeGroup Bytes32.zero ⟨Bytes32.zero, .active⟩ hdistinct
    rwa [hgroup] at hsorted
  obtain ⟨first, others, hranked, -, -, -, hsource, -⟩ :=
    isSource_of_mergeable hdistinct ha hb howned rfl rfl rfl hmergeable
  obtain ⟨rfl, -⟩ := List.cons.inj (hranked.eq hdistinct hranking)
  exact ⟨hdistinct, ha, hb, howned, rfl, rfl, rfl, hmergeable, hranking, hsource.2 rfl⟩

/-- Two accounts behind the largest one share a lockup that the largest does not have.  They can be merged
into each other, and no plan is made. -/
theorem mergeable_accounts_left :
    let address (n : UInt8) : Address := ⟨List.replicate 32 n, List.length_replicate⟩
    let account (n : UInt8) (balance lockedUntil : UInt64) : Account :=
      ⟨address n, some Bytes32.zero, some Bytes32.zero, some Bytes32.zero, none, none, false, false,
        balance, 0, 7, some ⟨0, lockedUntil, Bytes32.zero⟩, .active⟩
    let accounts : List Account := [account 3 9000 1, account 2 5000 2, account 1 4000 2]
    let a := account 2 5000 2
    let b := account 1 4000 2
    (accounts.map (·.address)).Nodup ∧ a ∈ accounts ∧ b ∈ accounts ∧
      a.isOwnedBy Bytes32.zero = true ∧ b.isOwnedBy Bytes32.zero = true ∧
      a.voter = some Bytes32.zero ∧ b.voter = some Bytes32.zero ∧
      a.isLockedUp = false ∧ b.isLockedUp = false ∧
      checkMergeable a b = .ok () ∧ checkMergeable b a = .ok () ∧
      ¬(IsSource (planMerges accounts Bytes32.zero) a.address ∨
        IsSource (planMerges accounts Bytes32.zero) b.address) := by
  intro address account accounts a b
  have hgroup : mergeGroup Bytes32.zero accounts ⟨Bytes32.zero, .active⟩ = accounts :=
    mergeGroup_eq_self (by decide +kernel) (by decide +kernel)
  have hnone : planMerges accounts Bytes32.zero = [] := by
    have hkeys : mergeKeys Bytes32.zero accounts = [⟨Bytes32.zero, .active⟩] := by decide +kernel
    have hplan : mergePlan? accounts = none := by decide +kernel
    rw [planMerges, hkeys, List.filterMap_cons_none (by rw [hgroup, hplan]), List.filterMap_nil,
      List.mergeSort_nil]
  refine ⟨by decide, by decide, by decide, rfl, rfl, rfl, rfl, rfl, rfl, by decide +kernel,
    by decide +kernel, ?_⟩
  simp [hnone, IsSource]

end

end Surety.Stake
