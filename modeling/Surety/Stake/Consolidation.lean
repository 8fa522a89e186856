import Surety.Stake.Suitability

/-!
# Merging the stake accounts of bonds

Accounts of one owner that are delegated to one vote account and are all active, or all deactivated,
are merged into the largest of them.  The plans are ordered by their destination; an account of
another lockup than the largest one stays as it is.
-/

namespace Surety.Stake

/-- Accounts to be merged into one. -/
structure MergePlan where
  destination : Address
  sources : List Address
  deriving DecidableEq

/-- What the accounts of one group share. -/
structure MergeKey where
  voter : Address
  stage : Stage
  deriving DecidableEq

/-- The group of an account; an account that cannot be merged has none. -/
def mergeKey? (bondsAuthority : Address) (account : Account) : Option MergeKey :=
  match account.voter with
  | none => none
  | some voter =>
      if account.isOwnedBy bondsAuthority && !account.isLockedUp && !account.isTransient
          && (account.stage == .active || account.stage == .deactivated) then
        some ⟨voter, account.stage⟩
      else none

/-- The keys of all groups, each once. -/
def mergeKeys (bondsAuthority : Address) (accounts : List Account) : List MergeKey :=
  (accounts.filterMap (mergeKey? bondsAuthority)).eraseDups

/-- Larger balances come first, equal balances are ordered by address. -/
def largerFirst (a b : Account) : Bool :=
  decide (b.balance < a.balance) || (a.balance == b.balance && decide (a.address ≤ b.address))

/-- The accounts of a group, largest first. -/
def mergeGroup (bondsAuthority : Address) (accounts : List Account) (key : MergeKey) :
    List Account :=
  (accounts.filter fun account => mergeKey? bondsAuthority account == some key).mergeSort largerFirst

/-- The plan of a sorted group, when at least one account can be merged into its first. -/
def mergePlan? : List Account → Option MergePlan
  | [] => none
  | destination :: others =>
      match others.filter fun source => passes (checkMergeable destination source) with
      | [] => none
      | sources => some ⟨destination.address, sources.map (·.address)⟩

/-- The plans for all groups, ordered by destination. -/
def planMerges (accounts : List Account) (bondsAuthority : Address) : List MergePlan :=
  ((mergeKeys bondsAuthority accounts).filterMap fun key =>
      mergePlan? (mergeGroup bondsAuthority accounts key)).mergeSort
    fun a b => decide (a.destination ≤ b.destination)

end Surety.Stake
