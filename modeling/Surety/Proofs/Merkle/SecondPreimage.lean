import Mathlib.Data.Nat.Log
import Surety.Proofs.Merkle.Binding
import Surety.Proofs.Merkle.Completeness

/-!
# Second preimages of a sorted tree

What can be proved to stand under the root of a sorted tree is one of its items, proved by exactly
as many siblings as the tree has levels above its leaves; anything else comes with two different
strings of the same hash.  In particular an inner node is never the leaf of anything, so a shortened
or a lengthened proof is of no use.

* `levels_length` computes the number of levels from the number of leaves.
* `leafHash_not_mem_inner_or_collision` keeps leaves and inner nodes apart.
* `verified_item_listed_or_collision` is the result for all items, strings and proofs.

Hashes themselves are accepted as leaves: a proof may start at an inner node as long as nobody has to
show a string whose leaf that node is.
-/

namespace Surety.Merkle

/-! ## The number of levels -/

/-- The levels above the leaves are as many as the number of leaves can be halved, rounding up. -/
theorem levels_length {sorted : Bool} {level : List Digest} (h : level ≠ []) :
    (levels sorted level).length = Nat.clog 2 level.length + 1 := by
  have hpos : 0 < level.length := List.length_pos_iff.2 h
  by_cases hone : level.length ≤ 1
  · have hlength : level.length = 1 := by omega
    rw [levels_of_length_le_one hone, hlength, Nat.clog_one_right]
    rfl
  · have hnext : pairUp sorted level ≠ [] := by
      apply List.length_pos_iff.1
      rw [pairUp_length]
      omega
    have hhalf : (level.length + 2 - 1) / 2 = (pairUp sorted level).length := by
      rw [pairUp_length]
      rfl
    have hclog : Nat.clog 2 level.length = Nat.clog 2 (pairUp sorted level).length + 1 := by
      rw [Nat.clog_of_two_le (by decide) (by omega), hhalf]
    rw [levels_of_one_lt_length (by omega), List.length_cons, levels_length hnext, hclog]
termination_by level.length
decreasing_by
  rw [pairUp_length]
  omega

/-! ## Leaves and inner nodes -/

/-- The nodes of a sorted tree that stand above its leaves, level by level. -/
def innerNodes (items : List Bytes) : List Digest :=
  (levels true (items.map leafHash)).tail.flatten

/-- The strings hashed when an item is checked against a root: its leaf and the way up. -/
def checkPreimages (item : Bytes) (proof : List Digest) : List Bytes :=
  leafPreimage item :: foldPreimages .sorted 0 (leafHash item) proof

/-- No string has an inner node for its leaf, or there is a collision. -/
theorem leafHash_not_mem_inner_or_collision {items strings : List Bytes} {item : Bytes}
    (htree : Tree.preimages items true ⊆ strings) (hleaf : leafPreimage item ∈ strings) :
    leafHash item ∉ innerNodes items ∨ Sha256.Collision strings := by
  by_cases hmem : leafHash item ∈ innerNodes items
  · obtain ⟨upper, hupper, hnode⟩ := List.mem_flatten.1 hmem
    obtain ⟨height, hheight⟩ := List.mem_iff_getElem?.1 hupper
    rw [List.getElem?_tail] at hheight
    -- the leaf would be hashed from a pair of nodes, whose first byte is another one
    have hinner := children_or_collision_of_inner hheight htree hleaf hnode
    refine .inr (hinner.resolve_left ?_)
    rintro ⟨_, -, left, -, right, -, heq⟩
    exact leafPreimage_ne_nodePreimage item left right heq
  · exact .inl hmem

/-- A sorted tree over at least one item has a root, and whenever a proof leads to it from the leaf
of a string, the string is one of the items, the proof has one sibling for each level above the
leaves, and the leaf is no inner node; or two different strings with the same hash are found among
those hashed for the tree, of which its nodes are the hashes, and for the check. -/
theorem verified_item_listed_or_collision (items : List Bytes) (hitems : items ≠ []) :
    (Tree.ofItems items true).nodes.toList = (Tree.preimages items true).map Sha256.hash ∧
    ∃ root, (Tree.ofItems items true).root? = some root ∧
      ∀ (item : Bytes) (proof : List Digest), verifyProof (leafHash item) proof root = true →
        (item ∈ items ∧ proof.length = Nat.clog 2 items.length ∧
          leafHash item ∉ innerNodes items) ∨
        Sha256.Collision (Tree.preimages items true ++ checkPreimages item proof) := by
  obtain ⟨_, -, -, hroot⟩ := @Tree.path?_leads_to_root items true 0 (List.length_pos_iff.2 hitems)
  refine ⟨Tree.ofItems_nodes_eq_hashes items true, _, hroot, ?_⟩
  intro item proof hverify
  have htree : Tree.preimages items true
      ⊆ Tree.preimages items true ++ checkPreimages item proof := List.subset_append_left _ _
  obtain ⟨hleaf, hfold⟩ : leafPreimage item ∈ Tree.preimages items true ++ checkPreimages item proof
      ∧ foldPreimages .sorted 0 (leafHash item) proof
        ⊆ Tree.preimages items true ++ checkPreimages item proof :=
    List.cons_subset.1 (List.subset_append_right _ _)
  rcases item_of_verified_proof hroot hverify htree hleaf hfold with ⟨hmem, hlength⟩ | hcollision
  · have hdepth : proof.length = Nat.clog 2 items.length := by
      rw [levels_length (by simpa using hitems), List.length_map] at hlength
      omega
    exact (leafHash_not_mem_inner_or_collision htree hleaf).imp_left fun hinner =>
      ⟨hmem, hdepth, hinner⟩
  · exact .inr hcollision

/-- The third of three items, which is paired with itself, passes with both levels above it. -/
theorem third_item_listed_or_collision :
    let items : List Bytes := [[1], [2], [3]]
    ∃ root proof, (Tree.ofItems items true).root? = some root ∧
      (Tree.ofItems items true).proof? 2 = some proof ∧
      verifyProof (leafHash [3]) proof root = true ∧
      (([3] ∈ items ∧ proof.length = Nat.clog 2 3 ∧ leafHash [3] ∉ innerNodes items) ∨
        Sha256.Collision (Tree.preimages items true ++ checkPreimages [3] proof)) := by
  intro items
  obtain ⟨path, hpath, -, hlead⟩ := @Tree.path?_leads_to_root items true 2 (by decide)
  obtain ⟨-, root, hroot, hlisted⟩ := verified_item_listed_or_collision items (by decide)
  have hproof : (Tree.ofItems items true).proof? 2 = some path.siblings := by
    rw [Tree.proof?, hpath, Option.map_some]
  have hverify : verifyProof (leafHash [3]) path.siblings root = true := by
    rw [verifyProof, verifyWithOrder_iff, foldProof_sorted_siblings]
    exact Option.some.inj (hlead.symm.trans hroot)
  exact ⟨root, path.siblings, hroot, hproof, hverify, hlisted [3] path.siblings hverify⟩

end Surety.Merkle
