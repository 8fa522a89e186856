import Mathlib.Tactic.Common
import Surety.Proofs.Hash.Collision
import Surety.Proofs.Merkle.Layout

/-!
# A root binds the items of its tree

Whoever shows a proof that leads to the root of a tree starts from a leaf of that tree, unless two
different strings with the same hash turn up among the strings that were hashed.

* `Tree.preimages` and `foldPreimages` list what building a tree and following a proof hash;
  `Tree.ofItems_nodes_eq_hashes` says that the nodes of the tree are the hashes of that list.
* `Ascent` is a way up through hashed strings, of which following a proof is one;
  `Ascent.mem_level_or_collision` walks it back down from any node of the tree, level by level.
* `item_of_ascent` is the result for the leaf at the lower end, and `item_of_verified_proof` its case
  for proofs.

The lists are part of each statement: a collision elsewhere does not excuse a forged proof.
-/

namespace Surety

namespace Merkle

/-! ## What is hashed -/

/-- The string hashed for the parent of two neighbours. -/
def parentPreimage (sorted : Bool) (left right : Digest) : Bytes :=
  if sorted && decide (right < left) then nodePreimage right left else nodePreimage left right

/-- The strings hashed for the parents of a level. -/
def parentPreimages (sorted : Bool) : List Digest → List Bytes
  | [] => []
  | [last] => [parentPreimage sorted last last]
  | left :: right :: rest => parentPreimage sorted left right :: parentPreimages sorted rest

/-- The strings hashed for all nodes above a level. -/
def innerPreimages (sorted : Bool) (level : List Digest) : List Bytes :=
  if level.length ≤ 1 then []
  else parentPreimages sorted level ++ innerPreimages sorted (pairUp sorted level)
termination_by level.length
decreasing_by
  rw [pairUp_length]
  omega

/-- The strings hashed for the tree over a list of items, leaves first. -/
def Tree.preimages (items : List Bytes) (sorted : Bool) : List Bytes :=
  items.map leafPreimage ++ innerPreimages sorted (items.map leafHash)

/-- The strings hashed on the way along a proof. -/
def foldPreimages (order : SiblingOrder) : (level : Nat) → Digest → List Digest → List Bytes
  | _, _, [] => []
  | level, accumulated, sibling :: rest =>
      pairPreimage order level accumulated sibling
        :: foldPreimages order (level + 1) (pairHash order level accumulated sibling) rest

theorem parent_eq_hash (sorted : Bool) (left right : Digest) :
    parent sorted left right = Sha256.hash (parentPreimage sorted left right) := by
  unfold parent parentPreimage
  split <;> rfl

theorem pairUp_eq_hashes (sorted : Bool) (level : List Digest) :
    pairUp sorted level = (parentPreimages sorted level).map Sha256.hash := by
  induction level using pairUp.induct with
  | case1 => rfl
  | case2 last => simp [pairUp, parentPreimages, parent_eq_hash]
  | case3 left right rest ih => simp [pairUp, parentPreimages, parent_eq_hash, ih]

theorem levels_flatten_eq_hashes (sorted : Bool) (level : List Digest) :
    (levels sorted level).flatten
      = level ++ (innerPreimages sorted level).map Sha256.hash := by
  rw [innerPreimages]
  split
  · rename_i hone
    simp [levels_of_length_le_one hone]
  · rename_i hwide
    rw [levels_of_one_lt_length (by omega), List.flatten_cons, levels_flatten_eq_hashes,
      List.map_append, ← pairUp_eq_hashes]
termination_by level.length
decreasing_by
  rw [pairUp_length]
  omega

/-- The nodes of a tree are the hashes of the strings that are hashed for it, in the same order. -/
theorem Tree.ofItems_nodes_eq_hashes (items : List Bytes) (sorted : Bool) :
    (Tree.ofItems items sorted).nodes.toList
      = (Tree.preimages items sorted).map Sha256.hash := by
  rw [Tree.ofItems_nodes, levels_flatten_eq_hashes, Tree.preimages, List.map_append,
    List.map_map]
  rfl

/-! ## Children of an inner node -/

/-- Every parent of a level is the hash of two nodes of that level. -/
theorem exists_children_of_mem_pairUp {sorted : Bool} {level : List Digest} {node : Digest}
    (hnode : node ∈ pairUp sorted level) :
    ∃ left ∈ level, ∃ right ∈ level,
      nodePreimage left right ∈ parentPreimages sorted level ∧ node = nodeHash left right := by
  have hparent : ∀ left right : Digest, ∃ first ∈ [left, right], ∃ second ∈ [left, right],
      parentPreimage sorted left right = nodePreimage first second := by
    intro left right
    unfold parentPreimage
    split
    · exact ⟨right, by simp, left, by simp, rfl⟩
    · exact ⟨left, by simp, right, by simp, rfl⟩
  induction level using pairUp.induct with
  | case1 => simp [pairUp] at hnode
  | case2 last =>
      obtain ⟨first, hfirst, second, hsecond, heq⟩ := hparent last last
      simp only [pairUp, List.mem_singleton, parent_eq_hash, heq] at hnode
      refine ⟨first, by simpa using hfirst, second, by simpa using hsecond, ?_, hnode⟩
      rw [parentPreimages, heq]
      exact List.mem_singleton_self _
  | case3 left right rest ih =>
      simp only [pairUp, List.mem_cons] at hnode
      rcases hnode with hnode | hnode
      · obtain ⟨first, hfirst, second, hsecond, heq⟩ := hparent left right
        rw [parent_eq_hash, heq] at hnode
        refine ⟨first, by simp at hfirst ⊢; tauto, second, by simp at hsecond ⊢; tauto, ?_, hnode⟩
        rw [parentPreimages, heq]
        exact List.mem_cons_self
      · obtain ⟨first, hfirst, second, hsecond, hstring, heq⟩ := ih hnode
        exact ⟨first, by simp [hfirst], second, by simp [hsecond],
          List.mem_cons_of_mem _ hstring, heq⟩

/-- The strings hashed for the parents of any level of a tree are among those of the tree. -/
theorem parentPreimages_subset {sorted : Bool} {level lower : List Digest} {height : Nat}
    (hlower : (levels sorted level)[height]? = some lower) (hwide : 1 < lower.length) :
    parentPreimages sorted lower ⊆ innerPreimages sorted level := by
  by_cases hone : level.length ≤ 1
  · rw [levels_of_length_le_one hone] at hlower
    cases height with
    | zero =>
        obtain rfl : level = lower := by simpa using hlower
        omega
    | succ height => simp at hlower
  · rw [levels_of_one_lt_length (by omega)] at hlower
    rw [innerPreimages, if_neg hone]
    cases height with
    | zero =>
        obtain rfl : level = lower := by simpa using hlower
        exact List.subset_append_left _ _
    | succ height =>
        rw [List.getElem?_cons_succ] at hlower
        intro string hstring
        exact List.mem_append_right _ (parentPreimages_subset hlower hwide hstring)
termination_by height

/-! ## Ways up -/

/-- A way up from a node to a top, on which each step hashes one of the given strings, an inner one with
the node so far as a child. -/
inductive Ascent (strings : List Bytes) : (steps : Nat) → Digest → Digest → Prop
  | refl (node : Digest) : Ascent strings 0 node node
  | step {steps : Nat} {left right node top : Digest} (hstring : nodePreimage left right ∈ strings)
      (hchild : node = left ∨ node = right)
      (hrest : Ascent strings steps (nodeHash left right) top) :
      Ascent strings (steps + 1) node top

/-- The two children are the accumulated hash and its sibling, in one order or the other. -/
theorem SiblingOrder.arrange_cases (order : SiblingOrder) (level : Nat)
    (accumulated sibling : Digest) :
    order.arrange level accumulated sibling = (accumulated, sibling) ∨
      order.arrange level accumulated sibling = (sibling, accumulated) := by
  cases order <;> (unfold SiblingOrder.arrange; dsimp only; split <;> simp)

/-- The accumulated hash is one of the two children that a level of a proof hashes. -/
theorem exists_arrangement (order : SiblingOrder) (level : Nat) (accumulated sibling : Digest) :
    ∃ left right, pairPreimage order level accumulated sibling = nodePreimage left right ∧
      (accumulated = left ∨ accumulated = right) := by
  rcases order.arrange_cases level accumulated sibling with harrange | harrange
  · exact ⟨accumulated, sibling, by rw [pairPreimage, harrange], .inl rfl⟩
  · exact ⟨sibling, accumulated, by rw [pairPreimage, harrange], .inr rfl⟩

/-- Following a proof is a way up with one step for each sibling. -/
theorem ascent_of_foldProof {order : SiblingOrder} {level : Nat} {accumulated : Digest}
    {proof : List Digest} {strings : List Bytes}
    (hfold : foldPreimages order level accumulated proof ⊆ strings) :
    Ascent strings proof.length accumulated (foldProof order level accumulated proof) := by
  induction proof generalizing level accumulated with
  | nil => exact .refl accumulated
  | cons sibling rest ih =>
      obtain ⟨hstring, hrest⟩ := List.cons_subset.1 hfold
      obtain ⟨left, right, harrange, hchild⟩ := exists_arrangement order level accumulated sibling
      have hnext : pairHash order level accumulated sibling = nodeHash left right := by
        rw [nodeHash, ← harrange]
        rfl
      exact .step (harrange ▸ hstring) hchild (hnext ▸ ih hrest)

/-! ## Walking back down -/

section

variable {items : List Bytes} {sorted : Bool} {order : SiblingOrder} {strings : List Bytes}

/-- A leaf of a tree is the hash of an item and of no inner string, or there is a collision. -/
theorem item_or_collision_of_leaf {string : Bytes} {leaves : List Digest}
    (hleaves : (levels sorted (items.map leafHash))[0]? = some leaves)
    (htree : Tree.preimages items sorted ⊆ strings) (hstring : string ∈ strings)
    (hmem : Sha256.hash string ∈ leaves) :
    (∃ item ∈ items, string = leafPreimage item) ∨ Sha256.Collision strings := by
  obtain rfl : items.map leafHash = leaves := by simpa [levels_zero] using hleaves
  obtain ⟨item, hitem, hhash⟩ := List.mem_map.1 hmem
  have hleaf : leafPreimage item ∈ strings :=
    htree (List.mem_append_left _ (List.mem_map_of_mem hitem))
  exact (Sha256.eq_or_collision hstring hleaf hhash.symm).imp_left fun heq => ⟨item, hitem, heq⟩

/-- An inner node of a tree is the hash of two nodes of the level below and of no other string, or
there is a collision. -/
theorem children_or_collision_of_inner {string : Bytes} {height : Nat} {upper : List Digest}
    (hupper : (levels sorted (items.map leafHash))[height + 1]? = some upper)
    (htree : Tree.preimages items sorted ⊆ strings) (hstring : string ∈ strings)
    (hmem : Sha256.hash string ∈ upper) :
    (∃ lower, (levels sorted (items.map leafHash))[height]? = some lower ∧
      ∃ left ∈ lower, ∃ right ∈ lower, string = nodePreimage left right) ∨
    Sha256.Collision strings := by
  obtain ⟨lower, hlower, hwide, rfl⟩ := levels_succ hupper
  obtain ⟨left, hleft, right, hright, hpre, hhash⟩ := exists_children_of_mem_pairUp hmem
  have hnode : nodePreimage left right ∈ strings :=
    htree (List.mem_append_right _ (parentPreimages_subset hlower hwide hpre))
  exact (Sha256.eq_or_collision hstring hnode hhash).imp_left fun heq =>
    ⟨lower, hlower, left, hleft, right, hright, heq⟩

/-- A way up to a node of a tree starts from a node as many levels below as it has steps, or there is a
collision. -/
theorem Ascent.mem_level_or_collision {steps height : Nat} {node top : Digest} {upper : List Digest}
    (h : Ascent strings steps node top)
    (hupper : (levels sorted (items.map leafHash))[height]? = some upper)
    (htree : Tree.preimages items sorted ⊆ strings) (hmem : top ∈ upper) :
    (∃ lower, (levels sorted (items.map leafHash))[height - steps]? = some lower ∧
      steps ≤ height ∧ node ∈ lower) ∨ Sha256.Collision strings := by
  -- from the upper end: the rest of the way has already been walked back to some level
  induction h with
  | refl node => exact .inl ⟨upper, hupper, Nat.zero_le _, hmem⟩
  | @step steps left right node top hstring hchild hrest ih =>
      rcases ih hmem with ⟨lower, hlower, hle, hparent⟩ | hcollision
      · -- either the way has used up all levels, or there is one more below
        rcases Nat.eq_or_lt_of_le hle with hequal | hless
        · rw [hequal, Nat.sub_self] at hlower
          -- a leaf with something below it would be hashed as an inner node
          refine (item_or_collision_of_leaf hlower htree hstring hparent).imp_left ?_
          rintro ⟨item, -, heq⟩
          exact absurd heq.symm (leafPreimage_ne_nodePreimage _ _ _)
        · have hnext : height - steps = height - (steps + 1) + 1 := by omega
          rw [hnext] at hlower
          refine (children_or_collision_of_inner hlower htree hstring hparent).imp_left ?_
          rintro ⟨next, hnextLevel, first, hfirst, second, hsecond, heq⟩
          obtain ⟨rfl, rfl⟩ := nodePreimage_injective heq
          refine ⟨next, hnextLevel, hless, ?_⟩
          rcases hchild with rfl | rfl
          · exact hfirst
          · exact hsecond
      · exact .inr hcollision

/-- A leaf with a way up to the root is the leaf of one of the items, and the way has one step for each
level below the root; or there is a collision. -/
theorem item_of_ascent {item : Bytes} {steps : Nat} {root : Digest}
    (h : Ascent strings steps (leafHash item) root)
    (hroot : (Tree.ofItems items sorted).root? = some root)
    (htree : Tree.preimages items sorted ⊆ strings) (hleaf : leafPreimage item ∈ strings) :
    (item ∈ items ∧ steps + 1 = (levels sorted (items.map leafHash)).length) ∨
      Sha256.Collision strings := by
  rw [Tree.ofItems_root?] at hroot
  have htop := levels_getElem?_last hroot
  have hlength : 0 < (levels sorted (items.map leafHash)).length := by
    have hlt := (List.getElem?_eq_some_iff.1 htop).1
    omega
  have hend : root ∈ [root] := List.mem_singleton_self _
  rcases h.mem_level_or_collision htop htree hend with ⟨lower, hlower, hle, hmem⟩ | hcollision
  · rcases Nat.eq_or_lt_of_le hle with hequal | hless
    · rw [← hequal, Nat.sub_self] at hlower
      refine (item_or_collision_of_leaf hlower htree hleaf hmem).imp_left ?_
      rintro ⟨other, hother, heq⟩
      exact ⟨leafPreimage_injective heq ▸ hother, by omega⟩
    · -- the way is too short: the leaf would stand on a level of inner nodes
      have hnext : (levels sorted (items.map leafHash)).length - 1 - steps
          = (levels sorted (items.map leafHash)).length - 1 - steps - 1 + 1 := by omega
      rw [hnext] at hlower
      refine (children_or_collision_of_inner hlower htree hleaf hmem).imp_left ?_
      rintro ⟨_, -, left, -, right, -, heq⟩
      exact absurd heq (leafPreimage_ne_nodePreimage _ _ _)
  · exact .inr hcollision

/-- A leaf from which a proof leads to the root is the leaf of one of the items, and the proof has
one sibling for each level below the root; or there is a collision. -/
theorem item_of_verified_proof {item : Bytes} {proof : List Digest} {root : Digest}
    (hroot : (Tree.ofItems items sorted).root? = some root)
    (hverify : verifyWithOrder order (leafHash item) proof root = true)
    (htree : Tree.preimages items sorted ⊆ strings) (hleaf : leafPreimage item ∈ strings)
    (hfold : foldPreimages order 0 (leafHash item) proof ⊆ strings) :
    (item ∈ items ∧ proof.length + 1 = (levels sorted (items.map leafHash)).length) ∨
      Sha256.Collision strings := by
  have hascent := ascent_of_foldProof hfold
  rw [verifyWithOrder_iff.1 hverify] at hascent
  exact item_of_ascent hascent hroot htree hleaf

end

end Merkle

end Surety
