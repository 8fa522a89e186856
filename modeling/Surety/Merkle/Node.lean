import Surety.Hash.Sha256

/-!
# Hashes of leaves and inner nodes

The strings that a claim tree hashes.  A leaf string starts with the byte `0` and an inner string
with the byte `1`, so the two kinds never coincide; within each kind the string determines what was
hashed.  Whether two different strings have the same hash is left open.
-/

namespace Surety.Merkle

/-- The string hashed for the leaf of an item. -/
def leafPreimage (item : Bytes) : Bytes := 0 :: item

/-- The string hashed for an inner node with the given children. -/
def nodePreimage (left right : Digest) : Bytes := 1 :: (left.toList ++ right.toList)

/-- The leaf of an item. -/
def leafHash (item : Bytes) : Digest := Sha256.hash (leafPreimage item)

/-- The inner node with the given children. -/
def nodeHash (left right : Digest) : Digest := Sha256.hash (nodePreimage left right)

theorem leafPreimage_injective {x y : Bytes} (h : leafPreimage x = leafPreimage y) : x = y :=
  List.tail_eq_of_cons_eq h

theorem nodePreimage_injective {l r l' r' : Digest} (h : nodePreimage l r = nodePreimage l' r') :
    l = l' ∧ r = r' := by
  have happ := List.append_inj (List.tail_eq_of_cons_eq h) (by simp)
  exact ⟨Bytes32.ext happ.1, Bytes32.ext happ.2⟩

theorem leafPreimage_ne_nodePreimage (x : Bytes) (l r : Digest) :
    leafPreimage x ≠ nodePreimage l r := by
  intro h
  have hhead := List.head_eq_of_cons_eq h
  exact absurd hhead (by decide)

end Surety.Merkle
