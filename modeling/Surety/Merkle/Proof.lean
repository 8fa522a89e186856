import Surety.Merkle.Record

/-!
# Proofs of membership

A proof is the list of siblings from the leaf level up.  The order of the siblings decides which of
the two hashes is the left child of the next node, and it has to be the order that the tree was
built with.
-/

namespace Surety.Merkle

/-- Which of the accumulated hash and its sibling becomes the left child. -/
inductive SiblingOrder where
  /-- the smaller hash is the left child -/
  | sorted
  /-- the bits of the leaf index tell the side, lowest bit at the leaf level -/
  | positional (leafIndex : UInt64)
  deriving DecidableEq

/-- The left and the right child at a level of the proof. -/
def SiblingOrder.arrange (order : SiblingOrder) (level : Nat) (accumulated sibling : Digest) :
    Digest × Digest :=
  match order with
  | .sorted => if accumulated ≤ sibling then (accumulated, sibling) else (sibling, accumulated)
  | .positional leafIndex =>
      if leafIndex.toNat.testBit level then (sibling, accumulated) else (accumulated, sibling)

/-- The string hashed at a level of the proof. -/
def pairPreimage (order : SiblingOrder) (level : Nat) (accumulated sibling : Digest) : Bytes :=
  let children := order.arrange level accumulated sibling
  nodePreimage children.1 children.2

/-- The parent of the accumulated hash and its sibling. -/
def pairHash (order : SiblingOrder) (level : Nat) (accumulated sibling : Digest) : Digest :=
  let children := order.arrange level accumulated sibling
  nodeHash children.1 children.2

/-- The hash that a proof leads to, when its first sibling stands at the given level. -/
def foldProof (order : SiblingOrder) : (level : Nat) → Digest → List Digest → Digest
  | _, accumulated, [] => accumulated
  | level, accumulated, sibling :: rest =>
      foldProof order (level + 1) (pairHash order level accumulated sibling) rest

/-- Whether a proof leads from a leaf to a root. -/
def verifyWithOrder (order : SiblingOrder) (leaf : Digest) (proof : List Digest) (root : Digest) :
    Bool :=
  foldProof order 0 leaf proof == root

/-- Whether a proof leads from a leaf to a root of a tree with sorted children. -/
def verifyProof (leaf : Digest) (proof : List Digest) (root : Digest) : Bool :=
  verifyWithOrder .sorted leaf proof root

/-- Whether a claim belongs to the tree of a root. -/
def verifyClaim (root : Digest) (record : ClaimRecord) (proof : List Digest) : Bool :=
  verifyProof record.leaf proof root

theorem verifyWithOrder_iff {order : SiblingOrder} {leaf root : Digest} {proof : List Digest} :
    verifyWithOrder order leaf proof root = true ↔ foldProof order 0 leaf proof = root := by
  simp [verifyWithOrder]

end Surety.Merkle
