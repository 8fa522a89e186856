import Surety.Merkle.Proof

/-!
# Trees over items, stored as one array

The nodes of a tree stand level by level in one array, leaves first.  A level with an odd number of
nodes pairs its last node with itself.  Every access carries a proof that it stays inside the array,
and the type of a tree fixes the number of its nodes, so neither building a tree nor walking up from
a leaf can leave the array.
-/

namespace Surety.Merkle

/-- The parent of two neighbours; in a sorted tree the smaller hash is the left child. -/
def parent (sorted : Bool) (left right : Digest) : Digest :=
  if sorted && decide (right < left) then nodeHash right left else nodeHash left right

/-- The number of nodes on all levels above and including one of the given width. -/
def nodeCount (width : Nat) : Nat :=
  if width ≤ 1 then width else width + nodeCount ((width + 1) / 2)
termination_by width

/-- Append the parents of the nodes from `start` up to `stop`. -/
def pushParents (sorted : Bool) (nodes : Array Digest) (start stop : Nat)
    (hstop : stop ≤ nodes.size) : Array Digest :=
  if hstart : start < stop then
    let left := nodes[start]
    let right := if hpair : start + 1 < stop then nodes[start + 1] else left
    pushParents sorted (nodes.push (parent sorted left right)) (start + 2) stop
      (by simp only [Array.size_push]; omega)
  else nodes
termination_by stop - start

theorem pushParents_size (sorted : Bool) (nodes : Array Digest) (start stop : Nat)
    (hstop : stop ≤ nodes.size) :
    (pushParents sorted nodes start stop hstop).size = nodes.size + (stop - start + 1) / 2 := by
  rw [pushParents]
  split
  · rename_i hstart
    simp only
    rw [pushParents_size]
    simp only [Array.size_push]
    omega
  · omega
termination_by stop - start

/-- Append level after level, when the topmost level so far begins at `start`. -/
def grow (sorted : Bool) (nodes : Array Digest) (start : Nat) : Array Digest :=
  if nodes.size - start ≤ 1 then nodes
  else grow sorted (pushParents sorted nodes start nodes.size (Nat.le_refl _)) nodes.size
termination_by nodes.size - start
decreasing_by
  rw [pushParents_size]
  omega

theorem grow_size (sorted : Bool) (nodes : Array Digest) (start : Nat) (hstart : start ≤ nodes.size) :
    (grow sorted nodes start).size = start + nodeCount (nodes.size - start) := by
  rw [grow, nodeCount]
  split
  · omega
  · rename_i hwide
    rw [grow_size _ _ _ (by rw [pushParents_size]; omega), pushParents_size]
    have hwidth : nodes.size + (nodes.size - start + 1) / 2 - nodes.size
        = (nodes.size - start + 1) / 2 := by omega
    rw [hwidth]
    omega
termination_by nodes.size - start
decreasing_by
  rw [pushParents_size]
  omega

/-- The nodes of a tree, level by level. -/
structure Tree where
  leafCount : Nat
  nodes : Array Digest
  sorted : Bool
  size_eq : nodes.size = nodeCount leafCount

namespace Tree

/-- The tree over a list of items. -/
def ofItems (items : List Bytes) (sorted : Bool) : Tree where
  leafCount := items.length
  nodes := grow sorted (items.map leafHash).toArray 0
  sorted := sorted
  size_eq := by rw [grow_size _ _ _ (Nat.zero_le _)]; simp

/-- The single node of the last level; a tree without items has none. -/
def root? (tree : Tree) : Option Digest := tree.nodes.back?

/-- The leaf at an index. -/
def leaf? (tree : Tree) (index : Nat) : Option Digest :=
  if index < tree.leafCount then tree.nodes[index]? else none

end Tree

/-- The side on which a sibling sits. -/
inductive Side where
  | left
  | right
  deriving DecidableEq

/-- One step from a node to its parent: the node, its sibling and the side of the sibling. -/
structure PathEntry where
  target : Digest
  side : Side
  sibling : Digest
  deriving DecidableEq

/-- A step given by its two possible siblings, of which exactly one has to be there. -/
def PathEntry.ofSiblings? (target : Digest) (left right : Option Digest) : Option PathEntry :=
  match left, right with
  | some sibling, none => some ⟨target, .left, sibling⟩
  | none, some sibling => some ⟨target, .right, sibling⟩
  | _, _ => none

/-- The way from a leaf to the root. -/
abbrev Path := List PathEntry

namespace Path

/-- The parent that a step leads to from the hash below it. -/
def step (sorted : Bool) (accumulated : Digest) (entry : PathEntry) : Digest :=
  match entry.side with
  | .left => parent sorted entry.sibling accumulated
  | .right => parent sorted accumulated entry.sibling

/-- Whether the steps lead from a leaf to a root, on the sides that they record. -/
def verify (path : Path) (leaf root : Digest) (sorted : Bool) : Bool :=
  path.foldl (step sorted) leaf == root

/-- The siblings from the leaf level up. -/
def siblings (path : Path) : List Digest := path.map (·.sibling)

end Path

/-- The steps up from the node at `index` of the level of the given width that begins at `start`. -/
def pathFrom (nodes : Array Digest) (start width index : Nat) (hindex : index < width)
    (hsize : start + nodeCount width ≤ nodes.size) : Path :=
  if hwide : width ≤ 1 then []
  else
    have hcount : nodeCount width = width + nodeCount ((width + 1) / 2) := by
      conv => lhs; rw [nodeCount]
      simp [hwide]
    let target := nodes[start + index]
    let entry : PathEntry :=
      if heven : index % 2 = 0 then
        ⟨target, .right, if hnext : index + 1 < width then nodes[start + index + 1] else target⟩
      else ⟨target, .left, nodes[start + index - 1]⟩
    entry :: pathFrom nodes (start + width) ((width + 1) / 2) (index / 2) (by omega) (by omega)
termination_by width

namespace Tree

/-- The way from the leaf at an index to the root. -/
def path? (tree : Tree) (index : Nat) : Option Path :=
  if hindex : index < tree.leafCount then
    some (pathFrom tree.nodes 0 tree.leafCount index hindex
      (by rw [tree.size_eq]; omega))
  else none

/-- The proof of the leaf at an index. -/
def proof? (tree : Tree) (index : Nat) : Option (List Digest) :=
  (tree.path? index).map Path.siblings

end Tree

end Surety.Merkle
