import Mathlib.Data.List.Induction
import Mathlib.Data.List.Nodup
import Surety.Proofs.Stake.Merging

/-!
# The table of merge groups

Groups can be collected in one pass: each account is put behind the others of its group, and the first
account of a group opens it.  A table that is filled in this way lists every group once, with its
accounts in the order of the list.  An unordered table shows its groups in any order; that the plans do
not depend on it is proved in `Surety.Proofs.Stake.Consolidation`.

* `mergeKeys_concat` says when an account opens a group; `mergeKeys_nodup` follows from it.
* `groupTable_eq` says what a filled table holds.
-/

namespace Surety.Stake

/-- Groups with their accounts. -/
abbrev GroupTable := List (MergeKey × List Account)

/-- Put an account behind the others of its group, or open the group with it. -/
def GroupTable.push (key : MergeKey) (account : Account) : GroupTable → GroupTable
  | [] => [(key, [account])]
  | (other, group) :: rest =>
      if other = key then (other, group ++ [account]) :: rest
      else (other, group) :: push key account rest

/-- The table of all accounts that have a group, filled one by one. -/
def groupTable (bondsAuthority : Address) (accounts : List Account) : GroupTable :=
  accounts.foldl (fun table account =>
    match mergeKey? bondsAuthority account with
    | none => table
    | some key => GroupTable.push key account table) []

/-- The accounts of a group, in the order of the list. -/
def groupMembers (bondsAuthority : Address) (accounts : List Account) (key : MergeKey) :
    List Account :=
  accounts.filter fun account => mergeKey? bondsAuthority account == some key

section

variable {bondsAuthority : Address} {accounts : List Account} {account : Account} {key : MergeKey}

theorem mem_groupMembers_iff :
    account ∈ groupMembers bondsAuthority accounts key ↔
      account ∈ accounts ∧ mergeKey? bondsAuthority account = some key := by
  rw [groupMembers, List.mem_filter, beq_iff_eq]

theorem mem_mergeKeys_iff :
    key ∈ mergeKeys bondsAuthority accounts ↔
      ∃ account ∈ accounts, mergeKey? bondsAuthority account = some key := by
  rw [mergeKeys, List.mem_eraseDups, List.mem_filterMap]

theorem mergeKeys_concat_none (hnone : mergeKey? bondsAuthority account = none) :
    mergeKeys bondsAuthority (accounts ++ [account]) = mergeKeys bondsAuthority accounts := by
  rw [mergeKeys, List.filterMap_append, List.filterMap_cons_none hnone, List.filterMap_nil,
    List.append_nil, mergeKeys]

/-- An account with a group opens it unless the group is open already. -/
theorem mergeKeys_concat (hkey : mergeKey? bondsAuthority account = some key) :
    mergeKeys bondsAuthority (accounts ++ [account])
      = if key ∈ mergeKeys bondsAuthority accounts then mergeKeys bondsAuthority accounts
        else mergeKeys bondsAuthority accounts ++ [key] := by
  rw [mergeKeys, mergeKeys, List.filterMap_append, List.filterMap_cons_some hkey, List.filterMap_nil,
    List.eraseDups_append]
  generalize accounts.filterMap (mergeKey? bondsAuthority) = keys
  by_cases hopen : key ∈ keys
  · have hnothing : [key].removeAll keys = [] := by simp [List.removeAll, hopen]
    rw [if_pos (List.mem_eraseDups.2 hopen), hnothing, List.eraseDups_nil, List.append_nil]
  · have hfirst : [key].removeAll keys = [key] := by simp [List.removeAll, hopen]
    rw [if_neg (mt List.mem_eraseDups.1 hopen), hfirst]
    rfl

theorem mergeKeys_nodup (bondsAuthority : Address) (accounts : List Account) :
    (mergeKeys bondsAuthority accounts).Nodup := by
  induction accounts using List.reverseRecOn with
  | nil => exact .nil
  | append_singleton accounts account ih =>
      cases hkey : mergeKey? bondsAuthority account with
      | none =>
          rw [mergeKeys_concat_none hkey]
          exact ih
      | some key =>
          rw [mergeKeys_concat hkey]
          split
          · exact ih
          · rename_i hnew
            rw [← List.concat_eq_append]
            exact ih.concat hnew

/-- Pushing an account changes its group alone, and adds the group when it is new. -/
theorem push_map {keys : List MergeKey} {members : MergeKey → List Account} (hkeys : keys.Nodup)
    (hnew : key ∉ keys → members key = []) :
    GroupTable.push key account (keys.map fun other => (other, members other))
      = (if key ∈ keys then keys else keys ++ [key]).map fun other =>
          (other, if other = key then members other ++ [account] else members other) := by
  induction keys with
  | nil => simp [GroupTable.push, hnew]
  | cons first rest ih =>
      obtain ⟨hfirst, hrest⟩ := List.nodup_cons.1 hkeys
      rw [List.map_cons, GroupTable.push]
      by_cases hsame : first = key
      · subst hsame
        have hothers : ∀ other ∈ rest, other ≠ first := by
          rintro other hother rfl
          exact hfirst hother
        -- the groups behind the one of the account keep their members
        rw [if_pos rfl, if_pos List.mem_cons_self, List.map_cons, if_pos rfl]
        congr 1
        refine List.map_congr_left fun other hother => ?_
        rw [if_neg (hothers other hother)]
      · have hmem : key ∈ first :: rest ↔ key ∈ rest := by
          rw [List.mem_cons, or_iff_right (Ne.symm hsame)]
        rw [if_neg hsame, ih hrest fun hout => hnew (mt hmem.1 hout)]
        by_cases hin : key ∈ rest
        · rw [if_pos hin, if_pos (hmem.2 hin), List.map_cons, if_neg hsame]
        · rw [if_neg hin, if_neg (mt hmem.1 hin), List.cons_append, List.map_cons, if_neg hsame]

/-- A filled table holds every group once, in the order of their first accounts. -/
theorem groupTable_eq (bondsAuthority : Address) (accounts : List Account) :
    groupTable bondsAuthority accounts
      = (mergeKeys bondsAuthority accounts).map fun key =>
          (key, groupMembers bondsAuthority accounts key) := by
  induction accounts using List.reverseRecOn with
  | nil => rfl
  | append_singleton accounts account ih =>
      rw [groupTable, List.foldl_concat, ← groupTable, ih]
      cases hkey : mergeKey? bondsAuthority account with
      | none =>
          rw [mergeKeys_concat_none hkey]
          refine List.map_congr_left fun other _ => ?_
          simp [groupMembers, hkey]
      | some key =>
          -- a group that is not open yet has no members among the accounts so far
          have hnew : key ∉ mergeKeys bondsAuthority accounts →
              groupMembers bondsAuthority accounts key = [] := by
            intro hclosed
            refine List.eq_nil_iff_forall_not_mem.2 fun member hmember => hclosed ?_
            exact mem_mergeKeys_iff.2 ⟨member, mem_groupMembers_iff.1 hmember⟩
          dsimp only
          rw [push_map (mergeKeys_nodup bondsAuthority accounts) hnew, mergeKeys_concat hkey]
          refine List.map_congr_left fun other _ => ?_
          by_cases hsame : other = key
          · simp [groupMembers, hkey, hsame]
          · simp [groupMembers, hkey, hsame, Ne.symm hsame]

end

end Surety.Stake
