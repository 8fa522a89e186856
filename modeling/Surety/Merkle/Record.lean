import Surety.Merkle.Node

/-!
# Claim records

One payout of a settlement: who may stake and withdraw it, and how many lamports it is worth.  A
record is hashed to an item, the item to a leaf.  An indexed record also commits to its place in the
tree.  The string hashed for the item of an indexed record determines the record but for its proof.
-/

namespace Surety.Merkle

/-- The string hashed for a claim without an index. -/
def itemPreimage (stakeAuthority withdrawAuthority : Address) (claim : UInt64) : Bytes :=
  stakeAuthority.toList ++ (withdrawAuthority.toList ++ Bytes.ofUInt64 claim)

/-- The string hashed for a claim at an index. -/
def indexedItemPreimage (stakeAuthority withdrawAuthority : Address) (claim index : UInt64) :
    Bytes :=
  stakeAuthority.toList ++ (withdrawAuthority.toList
    ++ (Bytes.ofUInt64 claim ++ Bytes.ofUInt64 index))

/-- The item of a claim without an index. -/
def itemHash (stakeAuthority withdrawAuthority : Address) (claim : UInt64) : Digest :=
  Sha256.hash (itemPreimage stakeAuthority withdrawAuthority claim)

/-- The item of a claim at an index. -/
def indexedItemHash (stakeAuthority withdrawAuthority : Address) (claim index : UInt64) : Digest :=
  Sha256.hash (indexedItemPreimage stakeAuthority withdrawAuthority claim index)

/-- The leaf of a claim without an index. -/
def claimLeaf (stakeAuthority withdrawAuthority : Address) (claim : UInt64) : Digest :=
  leafHash (itemHash stakeAuthority withdrawAuthority claim).toList

/-- The leaf of a claim at an index. -/
def indexedClaimLeaf (stakeAuthority withdrawAuthority : Address) (claim index : UInt64) : Digest :=
  leafHash (indexedItemHash stakeAuthority withdrawAuthority claim index).toList

/-- A claim of a tree that does not commit to indices. -/
structure ClaimRecord where
  stakeAuthority : Address
  withdrawAuthority : Address
  claim : UInt64
  proof : Option (List Digest)
  deriving DecidableEq

/-- A claim together with the index of its leaf. -/
structure IndexedClaimRecord where
  stakeAuthority : Address
  withdrawAuthority : Address
  claim : UInt64
  index : UInt64
  proof : Option (List Digest)
  deriving DecidableEq

/-- The item that a tree is built from. -/
def ClaimRecord.item (r : ClaimRecord) : Digest :=
  itemHash r.stakeAuthority r.withdrawAuthority r.claim

/-- The leaf that a proof starts from. -/
def ClaimRecord.leaf (r : ClaimRecord) : Digest := leafHash r.item.toList

/-- The item that a tree is built from. -/
def IndexedClaimRecord.item (r : IndexedClaimRecord) : Digest :=
  indexedItemHash r.stakeAuthority r.withdrawAuthority r.claim r.index

/-- The leaf that a proof starts from. -/
def IndexedClaimRecord.leaf (r : IndexedClaimRecord) : Digest := leafHash r.item.toList

theorem indexedItemPreimage_injective {s w s' w' : Address} {c i c' i' : UInt64}
    (h : indexedItemPreimage s w c i = indexedItemPreimage s' w' c' i') :
    s = s' ∧ w = w' ∧ c = c' ∧ i = i' := by
  have hs := List.append_inj h (by simp)
  have hw := List.append_inj hs.2 (by simp)
  have hc := List.append_inj hw.2 (by simp)
  exact ⟨Bytes32.ext hs.1, Bytes32.ext hw.1, Bytes.ofUInt64_injective hc.1,
    Bytes.ofUInt64_injective hc.2⟩

end Surety.Merkle
