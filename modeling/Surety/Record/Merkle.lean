import Surety.Merkle.Record
import Surety.Record.Row

/-!
# Records of claims

The records that a distribution publishes for every claim, with or without the index of its leaf.
-/

namespace Surety.Merkle

/-- The field of a proof that may be missing. -/
def proofJson : Option (List Digest) → Json
  | none => .null
  | some proof => .ofRawList proof

namespace ClaimRecord

/-- The fields of a record, in order. -/
def fieldNames : List String := ["stake_authority", "withdraw_authority", "claim", "proof"]

/-- The record of a claim. -/
def toJson (r : ClaimRecord) : Json :=
  .obj [
    ("stake_authority", .ofAddress r.stakeAuthority),
    ("withdraw_authority", .ofAddress r.withdrawAuthority),
    ("claim", .word r.claim),
    ("proof", proofJson r.proof)]

/-- Read a record. -/
def ofJson? (value : Json) : Option ClaimRecord := do
  let row ← Json.row? fieldNames value
  let stakeAuthority ← (row "stake_authority").address?
  let withdrawAuthority ← (row "withdraw_authority").address?
  let claim ← (row "claim").word?
  let proof ← (row "proof").nullable? Json.toRawList?
  return ⟨stakeAuthority, withdrawAuthority, claim, proof⟩

end ClaimRecord

namespace IndexedClaimRecord

/-- The fields of a record, in order. -/
def fieldNames : List String :=
  ["stake_authority", "withdraw_authority", "claim", "index", "proof"]

/-- The record of a claim. -/
def toJson (r : IndexedClaimRecord) : Json :=
  .obj [
    ("stake_authority", .ofAddress r.stakeAuthority),
    ("withdraw_authority", .ofAddress r.withdrawAuthority),
    ("claim", .word r.claim),
    ("index", .word r.index),
    ("proof", proofJson r.proof)]

/-- Read a record. -/
def ofJson? (value : Json) : Option IndexedClaimRecord := do
  let row ← Json.row? fieldNames value
  let stakeAuthority ← (row "stake_authority").address?
  let withdrawAuthority ← (row "withdraw_authority").address?
  let claim ← (row "claim").word?
  let index ← (row "index").word?
  let proof ← (row "proof").nullable? Json.toRawList?
  return ⟨stakeAuthority, withdrawAuthority, claim, index, proof⟩

end IndexedClaimRecord

end Surety.Merkle
