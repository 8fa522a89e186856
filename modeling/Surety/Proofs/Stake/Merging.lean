import Surety.Proofs.Stake.Ownership
import Surety.Stake.Consolidation

/-!
# The accounts that a merge plan names

A merge plan names accounts of the given list that have a group, which only accounts of the bonds
authority have.

* `checkMergeable_eq_ok_iff` says which accounts can be merged into which.
* `mergeKey?_eq_some_iff` says which accounts have a group and which one.
* `mem_planMerges_iff` and `mergePlan?_eq_some_iff` open the plans and one of them.
* `grouped_of_mem_planMerges` is the result for a plan.
-/

namespace Surety.Stake

/-- Two accounts can be merged when they are different, rest in one stage and agree in vote account,
lockup and authorities. -/
theorem checkMergeable_eq_ok_iff {destination source : Account} :
    checkMergeable destination source = .ok () ↔
      destination.address ≠ source.address ∧
        destination.isTransient = false ∧ source.isTransient = false ∧
        (destination.stage = .active ∨ destination.stage = .deactivated) ∧
        destination.stage = source.stage ∧ destination.voter = source.voter ∧
        destination.lockup = source.lockup ∧ destination.staker = source.staker ∧
        destination.withdrawer = source.withdrawer := by
  unfold checkMergeable
  dsimp only
  constructor
  · intro h
    split at h
    · cases h
    · rename_i haddress
      split at h
      · cases h
      · rename_i htransient
        split at h
        · cases h
        · rename_i hstages
          split at h
          · cases h
          · rename_i hvoter
            split at h
            · cases h
            · rename_i hlockup
              split at h
              · cases h
              · rename_i hauthorities
                obtain ⟨hdestination, hsource⟩ := Bool.or_eq_false_iff.1 (Bool.not_eq_true _ ▸ htransient)
                obtain ⟨hstaker, hwithdrawer⟩ := not_or.1 hauthorities
                refine ⟨haddress, hdestination, hsource, ?_, ?_, not_not.1 hvoter, not_not.1 hlockup,
                  not_not.1 hstaker, not_not.1 hwithdrawer⟩
                · exact (not_not.1 hstages).imp And.left And.left
                · rcases not_not.1 hstages with ⟨hfirst, hsecond⟩ | ⟨hfirst, hsecond⟩
                  · exact hfirst.trans hsecond.symm
                  · exact hfirst.trans hsecond.symm
  · rintro ⟨haddress, hdestination, hsource, hresting, hstage, hvoter, hlockup, hstaker, hwithdrawer⟩
    have hstages : (destination.stage = .active ∧ source.stage = .active)
        ∨ (destination.stage = .deactivated ∧ source.stage = .deactivated) := by
      rwa [← hstage, and_self, and_self]
    simp [haddress, hdestination, hsource, hstages, hvoter, hlockup, hstaker, hwithdrawer]

/-- An account at rest does not change its delegation, whatever it holds. -/
theorem Account.isTransient_of_resting {account : Account}
    (h : account.stage = .active ∨ account.stage = .deactivated) : account.isTransient = false := by
  rcases h with hstage | hstage <;> simp [isTransient, hstage]

/-- All accounts that a plan is about. -/
def MergePlan.named (plan : MergePlan) : List Address := plan.destination :: plan.sources

section

variable {bondsAuthority : Address} {account : Account} {accounts : List Account} {key : MergeKey}
  {plan : MergePlan}

theorem mergeKey?_eq_some_iff :
    mergeKey? bondsAuthority account = some key ↔
      account.isOwnedBy bondsAuthority = true ∧ account.isLockedUp = false ∧
        account.isTransient = false ∧ (account.stage = .active ∨ account.stage = .deactivated) ∧
        account.voter = some key.voter ∧ account.stage = key.stage := by
  obtain ⟨voter, stage⟩ := key
  unfold mergeKey?
  cases hvoter : account.voter with
  | none => simp
  | some delegate =>
      simp only [Option.ite_none_right_eq_some, Bool.and_eq_true, Bool.or_eq_true, Bool.not_eq_true',
        beq_iff_eq, Option.some.injEq, MergeKey.mk.injEq, and_assoc]

theorem mem_mergeGroup_iff :
    account ∈ mergeGroup bondsAuthority accounts key ↔
      account ∈ accounts ∧ mergeKey? bondsAuthority account = some key := by
  rw [mergeGroup, List.mem_mergeSort, List.mem_filter, beq_iff_eq]

theorem mem_planMerges_iff :
    plan ∈ planMerges accounts bondsAuthority ↔
      ∃ key ∈ mergeKeys bondsAuthority accounts,
        mergePlan? (mergeGroup bondsAuthority accounts key) = some plan := by
  rw [planMerges, List.mem_mergeSort, List.mem_filterMap]

/-- The first account of a group is the destination, and all others that can be merged into it are
sources, as long as there is one. -/
theorem mergePlan?_eq_some_iff {group : List Account} :
    mergePlan? group = some plan ↔
      ∃ destination others, group = destination :: others ∧
        (others.filter fun source => passes (checkMergeable destination source)) ≠ [] ∧
        plan.destination = destination.address ∧
        plan.sources = (others.filter fun source =>
          passes (checkMergeable destination source)).map (·.address) := by
  cases group with
  | nil => simp [mergePlan?]
  | cons destination others =>
      rw [mergePlan?]
      split
      · rename_i hnone
        constructor
        · intro h
          cases h
        · rintro ⟨_, _, hgroup, hsome, -⟩
          cases hgroup
          exact absurd hnone hsome
      · rename_i sources hsome
        constructor
        · intro h
          cases h
          exact ⟨destination, others, rfl, hsome, rfl, rfl⟩
        · rintro ⟨_, _, hgroup, -, hdestination, hsources⟩
          cases hgroup
          rw [← hdestination, ← hsources]

/-- A plan of a group names accounts of the group. -/
theorem mem_of_mergePlan? {group : List Account} {address : Address}
    (h : mergePlan? group = some plan) (hnamed : address ∈ plan.named) :
    ∃ account ∈ group, account.address = address := by
  obtain ⟨destination, others, rfl, -, hdestination, hsources⟩ := mergePlan?_eq_some_iff.1 h
  rw [MergePlan.named, hdestination, hsources, List.mem_cons, List.mem_map] at hnamed
  rcases hnamed with rfl | ⟨source, hsource, rfl⟩
  · exact ⟨destination, List.mem_cons_self, rfl⟩
  · exact ⟨source, List.mem_cons_of_mem _ (List.mem_filter.1 hsource).1, rfl⟩

/-- A plan names accounts of the list that are in one group. -/
theorem grouped_of_mem_planMerges (h : plan ∈ planMerges accounts bondsAuthority) :
    ∃ key, ∀ address ∈ plan.named,
      ∃ account ∈ accounts, mergeKey? bondsAuthority account = some key ∧
        account.address = address := by
  obtain ⟨key, -, hplan⟩ := mem_planMerges_iff.1 h
  refine ⟨key, ?_⟩
  intro address hnamed
  obtain ⟨account, hgroup, haddress⟩ := mem_of_mergePlan? hplan hnamed
  obtain ⟨haccount, hkey⟩ := mem_mergeGroup_iff.1 hgroup
  exact ⟨account, haccount, hkey, haddress⟩

end

end Surety.Stake
