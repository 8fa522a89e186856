import Surety.Number.Binary64
import Surety.Stake.History

/-!
# How much of a delegation is at stake

Stake warms up and cools down over epochs, each epoch by a share of what the whole cluster moved: a
quarter of the effective stake of the cluster, or nine hundredths in the last epoch there can be, is
spread over all stake that is on its way.  Shares are computed in double precision, and at least one
lamport moves.  Where the history lacks an epoch the movement
stops there; a delegation whose start the history does not know counts as fully moved.

The sum of what has warmed up is kept in 64 bits.  A history in which more is effective than could
ever exist can drive it beyond them, and then there is no answer.
-/

namespace Surety.Stake

/-- Stake delegated to a vote account. -/
structure Delegation where
  voter : Address
  stake : UInt64
  activationEpoch : UInt64
  deactivationEpoch : UInt64
  /-- the bits of a rate that is no longer used -/
  warmupRateBits : UInt64
  deriving DecidableEq

/-- The stake of one delegation at an epoch.  Stake that cools down is counted as effective and as
deactivating. -/
structure Activation where
  effective : Nat
  activating : Nat
  deactivating : Nat
  deriving DecidableEq

/-- The largest 64-bit number. -/
def largestWord : Nat := 2 ^ 64 - 1

/-- The epoch that stands for "from the start" and for "never". -/
def farEpoch : Nat := largestWord

/-- The epoch from which the lower rate holds.  No cluster has set it, so it is the last one. -/
def lowerRateEpoch : Nat := farEpoch

/-- The part of its effective stake that the cluster moves on the way into an epoch. -/
def rate (epoch : Nat) : Binary64 :=
  if epoch < lowerRateEpoch then Binary64.ofRatio 1 4 else Binary64.ofRatio 9 100

/-- The share of one delegation in what the cluster moves on the way into an epoch: `moving` lamports
out of `clusterMoving`, when `clusterEffective` are effective.  It is at least one lamport and fits
64 bits. -/
def movedInto (epoch moving clusterMoving clusterEffective : Nat) : Nat :=
  let weight := (Binary64.ofNat moving).div (Binary64.ofNat clusterMoving)
  let clusterMoves := (Binary64.ofNat clusterEffective).mul (rate epoch)
  max 1 (min (weight.mul clusterMoves).floor largestWord)

/-- The effective stake after warming up from `current` at an epoch with the given entry, for at most
`steps` epochs; `none` when the sum leaves 64 bits. -/
def warmUp (history : History) (stake : Nat) :
    (steps : Nat) → (epoch : Nat) → HistoryEntry → (current : Nat) → Option Nat
  | 0, _, _, current => some current
  | steps + 1, epoch, entry, current =>
      if entry.activating = 0 then some current
      else
        let next := current
          + movedInto (epoch + 1) (stake - current) entry.activating.toNat entry.effective.toNat
        if largestWord < next then none
        else if stake ≤ next then some stake
        else
          match history.get? (epoch + 1) with
          | some entry => warmUp history stake steps (epoch + 1) entry next
          | none => some next

/-- The stake that is left after cooling down from `current` at an epoch with the given entry, for at
most `steps` epochs. -/
def coolDown (history : History) :
    (steps : Nat) → (epoch : Nat) → HistoryEntry → (current : Nat) → Nat
  | 0, _, _, current => current
  | steps + 1, epoch, entry, current =>
      if entry.deactivating = 0 then current
      else
        let next := current
          - movedInto (epoch + 1) current entry.deactivating.toNat entry.effective.toNat
        if next = 0 then 0
        else
          match history.get? (epoch + 1) with
          | some entry => coolDown history steps (epoch + 1) entry next
          | none => next

namespace Delegation

/-- The effective and the activating stake at an epoch, before any deactivation.  Warming up stops at
the epoch of deactivation. -/
def warmed (d : Delegation) (history : History) (epoch : Nat) : Option (Nat × Nat) :=
  let stake := d.stake.toNat
  let start := d.activationEpoch.toNat
  let stop := d.deactivationEpoch.toNat
  if start = farEpoch then some (stake, 0)
  else if start = stop then some (0, 0)
  else if epoch = start then some (0, stake)
  else if epoch < start then some (0, 0)
  else
    match history.get? start with
    | none => some (stake, 0)
    | some entry =>
        let steps := if start < stop then min epoch stop - start else 1
        (warmUp history stake steps start entry 0).map fun current => (current, stake - current)

/-- The stake at an epoch, given the effective and the activating stake before deactivation. -/
def cooled (d : Delegation) (history : History) (epoch effective activating : Nat) : Activation :=
  let stop := d.deactivationEpoch.toNat
  if epoch < stop then ⟨effective, activating, 0⟩
  else if epoch = stop then ⟨effective, 0, effective⟩
  else
    match history.get? stop with
    | none => ⟨0, 0, 0⟩
    | some entry =>
        let current := coolDown history (epoch - stop) stop entry effective
        ⟨current, 0, current⟩

/-- The stake at an epoch; `none` when the warm-up leaves 64 bits. -/
def activation (d : Delegation) (history : History) (epoch : Nat) : Option Activation :=
  (d.warmed history epoch).map fun (effective, activating) =>
    d.cooled history epoch effective activating

end Delegation

end Surety.Stake
