import Surety.Bitmap.ClaimBitmap
import Surety.Merkle.Proof
import Surety.Settlement.Funding

/-!
# Claiming from settlements

The counters of a settlement together with the bitmap of its claimed leaves.  A claim is admitted
when the settlement is open, the proof leads to the root, the leaf is not claimed yet, and neither
the total, the number of leaves nor the funding is exceeded; the conditions are checked in this
order.  Counters and bitmap change together or not at all.  Closing drops the bitmap.
-/

namespace Surety

/-- One claim, with the proof of its leaf. -/
structure ClaimRequest where
  index : UInt64
  stakeAuthority : Address
  withdrawAuthority : Address
  claim : UInt64
  proof : List Digest
  deriving DecidableEq

namespace ClaimRequest

/-- The request for an indexed record; a record without proof has the empty one. -/
def ofRecord (record : Merkle.IndexedClaimRecord) : ClaimRequest where
  index := record.index
  stakeAuthority := record.stakeAuthority
  withdrawAuthority := record.withdrawAuthority
  claim := record.claim
  proof := record.proof.getD []

/-- The leaf that the proof starts from. -/
def leaf (request : ClaimRequest) : Digest :=
  Merkle.indexedClaimLeaf request.stakeAuthority request.withdrawAuthority request.claim
    request.index

end ClaimRequest

/-- An admitted claim, with the counters after it. -/
structure ClaimAdmission where
  settlement : Address
  index : UInt64
  stakeAuthority : Address
  withdrawAuthority : Address
  amount : UInt64
  lamportsClaimed : UInt64
  merkleNodesClaimed : UInt64
  deriving DecidableEq

/-- What is left of a settlement when it is closed. -/
structure CloseReport where
  settlement : Address
  lamportsFunded : UInt64
  lamportsClaimed : UInt64
  merkleNodesClaimed : UInt64
  /-- funded and not claimed, returned to the bond -/
  lamportsUnclaimed : UInt64
  rentCollector : Address
  splitRentCollector : Option Address
  splitRentAmount : UInt64
  deriving DecidableEq

/-- A settlement with its claimed leaves; a closed one has no bitmap. -/
structure Claims where
  address : Address
  settlement : Settlement
  bitmap : Option ClaimBitmap
  deriving DecidableEq

namespace Claims

/-- A settlement from which nothing is claimed yet. -/
def start (settlement : Settlement) (config : Config) : Result Claims :=
  match ClaimBitmap.empty settlement.maxMerkleNodes with
  | .error e => .error e
  | .ok bitmap => .ok ⟨settlement.address config, settlement, some bitmap⟩

/-- A settlement with the claims that an account holds. -/
def ofAccountData (settlement : Settlement) (config : Config) (data : Bytes) : Result Claims :=
  let address := settlement.address config
  match ClaimBitmap.ofAccountData data with
  | .error e => .error e
  | .ok (header, bitmap) =>
      if header.settlement ≠ address then
        .error (.settlementMismatch address header.settlement)
      else if header.maxRecords ≠ settlement.maxMerkleNodes then
        .error (.invalidClaimsData (.recordCount header.maxRecords settlement.maxMerkleNodes))
      else .ok ⟨address, settlement, some bitmap⟩

/-- The bitmap, as long as the settlement is not closed. -/
def openBitmap (claims : Claims) : Result ClaimBitmap :=
  match claims.bitmap with
  | some bitmap => .ok bitmap
  | none => .error .settlementClosed

/-- The account that holds the claims. -/
def toAccountData (claims : Claims) : Result Bytes :=
  match claims.openBitmap with
  | .error e => .error e
  | .ok bitmap => .ok (bitmap.toAccountData claims.address)

/-- Whether the settlement is closed. -/
def isClosed (claims : Claims) : Bool := claims.bitmap.isNone

/-- The status at a point in time. -/
def status (claims : Claims) (clock : Clock) : SettlementStatus :=
  if claims.isClosed then .closed else claims.settlement.status clock

/-- Whether a leaf is claimed. -/
def isClaimed (claims : Claims) (index : UInt64) : Result Bool :=
  match claims.openBitmap with
  | .error e => .error e
  | .ok bitmap => bitmap.get index

/-- Apply a funding plan to the counters. -/
def recordFunding (claims : Claims) (plan : FundingPlan) : Result Claims :=
  match claims.openBitmap with
  | .error e => .error e
  | .ok _ =>
      match claims.settlement.recordFunding plan with
      | .error e => .error e
      | .ok settlement => .ok { claims with settlement := settlement }

/-- The counters after a claim of some lamports, or the limit that it breaks. -/
def countClaim (s : Settlement) (amount : UInt64) : Result (UInt64 × UInt64) :=
  match addChecked s.lamportsClaimed amount with
  | none => .error (.arithmeticOverflow .lamportsClaimed)
  | some lamports =>
      if s.maxTotalClaim < lamports then
        .error (.capacityExceeded .claimAmount lamports s.maxTotalClaim)
      else
        match addChecked s.merkleNodesClaimed 1 with
        | none => .error (.arithmeticOverflow .merkleNodesClaimed)
        | some nodes =>
            if s.maxMerkleNodes < nodes then
              .error (.capacityExceeded .claimCount nodes s.maxMerkleNodes)
            else if s.lamportsFunded < lamports then
              .error (.capacityExceeded .funded lamports s.lamportsFunded)
            else .ok (lamports, nodes)

/-- What admitting a claim would lead to; nothing changes. -/
def planAdmission (claims : Claims) (request : ClaimRequest) (clock : Clock) :
    Result ClaimAdmission := do
  let bitmap ← claims.openBitmap
  claims.settlement.checkClaimable clock
  if !Merkle.verifyProof request.leaf request.proof claims.settlement.merkleRoot then
    throw .verificationFailure
  if ← bitmap.get request.index then
    throw (.alreadyClaimed request.index)
  let (lamports, nodes) ← countClaim claims.settlement request.claim
  return {
    settlement := claims.address
    index := request.index
    stakeAuthority := request.stakeAuthority
    withdrawAuthority := request.withdrawAuthority
    amount := request.claim
    lamportsClaimed := lamports
    merkleNodesClaimed := nodes }

/-- Admit a claim: the admission and the state after it. -/
def accept (claims : Claims) (request : ClaimRequest) (clock : Clock) :
    Result (ClaimAdmission × Claims) := do
  let admission ← claims.planAdmission request clock
  let bitmap ← claims.openBitmap
  let bitmap ← bitmap.trySet admission.index
  return (admission,
    { claims with
      bitmap := some bitmap
      settlement :=
        { claims.settlement with
          lamportsClaimed := admission.lamportsClaimed
          merkleNodesClaimed := admission.merkleNodesClaimed } })

/-- The report of closing a settlement in its present state. -/
def closeReport (claims : Claims) : CloseReport where
  settlement := claims.address
  lamportsFunded := claims.settlement.lamportsFunded
  lamportsClaimed := claims.settlement.lamportsClaimed
  merkleNodesClaimed := claims.settlement.merkleNodesClaimed
  lamportsUnclaimed := claims.settlement.unclaimedLamports
  rentCollector := claims.settlement.rentCollector
  splitRentCollector := claims.settlement.splitRentCollector
  splitRentAmount := claims.settlement.splitRentAmount

/-- Close an expired settlement: the report and the state after it. -/
def close (claims : Claims) (clock : Clock) : Result (CloseReport × Claims) :=
  match claims.openBitmap with
  | .error e => .error e
  | .ok _ =>
      if claims.settlement.status clock = .expired then
        .ok (claims.closeReport, { claims with bitmap := none })
      else
        .error (.settlementNotExpired claims.settlement.claimableUntilEpoch clock.epoch)

/-- Save the claims to an account and load them again. -/
def reload (claims : Claims) (config : Config) : Result Claims :=
  match claims.toAccountData with
  | .error e => .error e
  | .ok data => ofAccountData claims.settlement config data

end Claims

end Surety
