import Surety.Bitmap.Header
import Surety.Word

/-!
# Settlements

A settlement pays out of one bond against a Merkle root, up to a total and a number of leaves, within
a window: from a slot on, and up to an epoch.  Expiry wins over a window that has not begun.
-/

namespace Surety

/-- What a settlement is created from. -/
structure SettlementTerms where
  bond : Address
  merkleRoot : Digest
  maxTotalClaim : UInt64
  maxMerkleNodes : UInt64
  epoch : UInt64
  slot : UInt64
  rentCollector : Address
  deriving DecidableEq

/-- A payout of a bond, with its counters. -/
structure Settlement where
  bond : Address
  /-- the staker of the stake accounts that fund the settlement -/
  stakerAuthority : Address
  merkleRoot : Digest
  maxTotalClaim : UInt64
  maxMerkleNodes : UInt64
  lamportsFunded : UInt64
  lamportsClaimed : UInt64
  merkleNodesClaimed : UInt64
  epochCreatedFor : UInt64
  slotCreatedAt : UInt64
  epochsToClaim : UInt64
  slotsToStartClaiming : UInt64
  /-- who gets the rent of the settlement accounts on close -/
  rentCollector : Address
  /-- who gets the rent of the account that was split off on funding -/
  splitRentCollector : Option Address
  splitRentAmount : UInt64
  deriving DecidableEq

/-- Where a point in time stands to the claim window. -/
inductive SettlementStatus where
  | notYetClaimable
  | opened
  | expired
  | closed
  deriving DecidableEq

/-- The name of a status in records. -/
def SettlementStatus.name : SettlementStatus → String
  | .notYetClaimable => "NotYetClaimable"
  | .opened => "Open"
  | .expired => "Expired"
  | .closed => "Closed"

/-- All statuses in the order in which a settlement passes through them. -/
def SettlementStatus.all : List SettlementStatus := [.notYetClaimable, .opened, .expired, .closed]

/-- The status of a name. -/
def SettlementStatus.ofName? (name : String) : Option SettlementStatus :=
  SettlementStatus.all.find? (·.name == name)

@[simp] theorem SettlementStatus.ofName?_name (s : SettlementStatus) :
    SettlementStatus.ofName? s.name = some s := by
  cases s <;> decide

namespace Settlement

/-- The settlement of some terms, when its bitmap fits an account. -/
def create (terms : SettlementTerms) (config : Config) : Result Settlement :=
  match checkRecordLimit terms.maxMerkleNodes with
  | .error e => .error e
  | .ok () =>
      let address := (Derivation.settlement terms.bond terms.merkleRoot terms.epoch).address config
      .ok
        { bond := terms.bond
          stakerAuthority := (Derivation.settlementStaker address).address config
          merkleRoot := terms.merkleRoot
          maxTotalClaim := terms.maxTotalClaim
          maxMerkleNodes := terms.maxMerkleNodes
          lamportsFunded := 0
          lamportsClaimed := 0
          merkleNodesClaimed := 0
          epochCreatedFor := terms.epoch
          slotCreatedAt := terms.slot
          epochsToClaim := config.epochsToClaim
          slotsToStartClaiming := config.slotsToStartClaiming
          rentCollector := terms.rentCollector
          splitRentCollector := none
          splitRentAmount := 0 }

/-- The address of a settlement. -/
def address (config : Config) (s : Settlement) : Address :=
  (Derivation.settlement s.bond s.merkleRoot s.epochCreatedFor).address config

/-- The last epoch in which a claim is permitted. -/
def claimableUntilEpoch (s : Settlement) : UInt64 := addSaturating s.epochCreatedFor s.epochsToClaim

/-- The first slot in which a claim is permitted. -/
def claimableFromSlot (s : Settlement) : UInt64 :=
  addSaturating s.slotCreatedAt s.slotsToStartClaiming

/-- The status at a point in time, as long as the settlement is not closed. -/
def status (s : Settlement) (clock : Clock) : SettlementStatus :=
  if s.claimableUntilEpoch < clock.epoch then .expired
  else if clock.slot < s.claimableFromSlot then .notYetClaimable
  else .opened

/-- Refuse a claim outside the window. -/
def checkClaimable (s : Settlement) (clock : Clock) : Result Unit :=
  match s.status clock with
  | .expired => .error (.settlementExpired s.claimableUntilEpoch clock.epoch)
  | .notYetClaimable => .error (.notYetClaimable s.claimableFromSlot clock.slot)
  | .closed => .error .settlementClosed
  | .opened => .ok ()

/-- Whether everything that can be claimed is funded. -/
def isFullyFunded (s : Settlement) : Bool := decide (s.maxTotalClaim ≤ s.lamportsFunded)

/-- The lamports that are funded and not claimed yet. -/
def unclaimedLamports (s : Settlement) : UInt64 := subSaturating s.lamportsFunded s.lamportsClaimed

end Settlement

end Surety
