import Surety.Stake.Basic

/-!
# The stake history of the cluster

For each past epoch how much stake was effective, on its way up and on its way down.  The newest
epoch comes first, an epoch occurs once, and only the 512 newest epochs are kept.
-/

namespace Surety.Stake

/-- The stake of the whole cluster in one epoch. -/
structure HistoryEntry where
  effective : UInt64
  activating : UInt64
  deactivating : UInt64
  deriving DecidableEq

/-- The stake of the cluster by epoch, newest first. -/
structure History where
  entries : List (UInt64 × HistoryEntry)
  deriving DecidableEq

namespace History

/-- The history of a cluster that has just started. -/
def empty : History := ⟨[]⟩

/-- The number of epochs that are kept. -/
def maxEntries : Nat := 512

/-- Put an entry at its place; an entry of the same epoch is replaced. -/
def insert (epoch : UInt64) (entry : HistoryEntry) :
    List (UInt64 × HistoryEntry) → List (UInt64 × HistoryEntry)
  | [] => [(epoch, entry)]
  | other :: rest =>
      if epoch < other.1 then other :: insert epoch entry rest
      else if epoch = other.1 then (epoch, entry) :: rest
      else (epoch, entry) :: other :: rest

/-- Record an epoch. -/
def add (history : History) (epoch : UInt64) (entry : HistoryEntry) : History :=
  ⟨(insert epoch entry history.entries).take maxEntries⟩

/-- The entry of an epoch. -/
def get? (history : History) (epoch : Nat) : Option HistoryEntry :=
  (history.entries.find? fun entry => entry.1.toNat == epoch).map (·.2)

end History

end Surety.Stake
