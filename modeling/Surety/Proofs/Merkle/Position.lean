import Surety.Proofs.Merkle.Commitment
import Surety.Proofs.Merkle.SecondPreimage

/-!
# Indices in an unsorted tree

A proof that is checked by the bits of an index starts from the leaf that the index leads to.  Below the
number of leaves an index leads to its own leaf.  Other indices lead to some leaf as well: who checks a
proof knows neither the number of leaves nor the number of levels, so bits above the last level are not
looked at, and a last node without neighbour is its own left and right child.

* `landing` is the leaf that an index leads to, and `landing_of_lt` says which one that is for an index in
  the tree.
* `node_or_collision_of_foldProof` walks a proof back down by the bits of the index, level by level.
* `foldProof_climb` says that the tree's own proof of a leaf passes for every index that leads to it.
* `verified_item_at_landing` is the result for all items, strings, indices and proofs, and
  `verified_at_index_outside` a proof for an index that no leaf has.
-/

namespace Surety.Merkle

/-! ## Where an index leads -/

/-- The node of a level of the given width that an index leads to from the topmost node down.  The bits of
the index choose between left and right child, the lowest one last; where the last node of the level has
no neighbour, both choices lead to it. -/
def landing (width index : Nat) : Nat :=
  if width ≤ 1 then 0
  else min (width - 1) (2 * landing ((width + 1) / 2) (index / 2) + index % 2)
termination_by width

theorem landing_of_le_one {width : Nat} (h : width ≤ 1) (index : Nat) : landing width index = 0 := by
  rw [landing, if_pos h]

theorem landing_of_one_lt {width : Nat} (h : 1 < width) (index : Nat) :
    landing width index
      = min (width - 1) (2 * landing ((width + 1) / 2) (index / 2) + index % 2) := by
  rw [landing, if_neg (by omega)]

theorem landing_lt {width : Nat} (h : 0 < width) (index : Nat) : landing width index < width := by
  rw [landing]
  split <;> omega

/-- The parent of the node that an index leads to is the one that half the index leads to. -/
theorem landing_half {width : Nat} (h : 1 < width) (index : Nat) :
    landing width index / 2 = landing ((width + 1) / 2) (index / 2) := by
  have habove : landing ((width + 1) / 2) (index / 2) < (width + 1) / 2 :=
    landing_lt (by omega) _
  rw [landing_of_one_lt h]
  omega

/-- An index in the tree leads to its own leaf. -/
theorem landing_of_lt {width index : Nat} (h : index < width) : landing width index = index := by
  rw [landing]
  split
  · omega
  · rw [landing_of_lt (show index / 2 < (width + 1) / 2 by omega)]
    omega
termination_by width

/-- Only as many bits of an index are looked at as there are levels below the topmost node. -/
theorem landing_mod_two_pow (width index : Nat) :
    landing width (index % 2 ^ Nat.clog 2 width) = landing width index := by
  by_cases hone : width ≤ 1
  · rw [landing_of_le_one hone, landing_of_le_one hone]
  · have hwide : 1 < width := by omega
    have hlevels : Nat.clog 2 width = Nat.clog 2 ((width + 1) / 2) + 1 :=
      Nat.clog_of_two_le (by decide) hwide
    have hhalf : index % 2 ^ Nat.clog 2 width / 2 = index / 2 % 2 ^ Nat.clog 2 ((width + 1) / 2) := by
      rw [hlevels, Nat.pow_succ', Nat.mod_mul_right_div_self]
    have hbit : index % 2 ^ Nat.clog 2 width % 2 = index % 2 := by
      rw [hlevels, Nat.pow_succ', Nat.mod_mul_right_mod]
    rw [landing_of_one_lt hwide, landing_of_one_lt hwide, hhalf, hbit, landing_mod_two_pow]
termination_by width

/-! ## Walking a proof back down -/

/-- The string of two neighbours, or of a last node with itself, is hashed for the level above. -/
theorem parentPreimage_mem {sorted : Bool} {level : List Digest} {k : Nat}
    (hleft : 2 * k < level.length) :
    parentPreimage sorted level[2 * k] (level[2 * k + 1]?.getD level[2 * k])
      ∈ parentPreimages sorted level := by
  induction level using pairUp.induct generalizing k with
  | case1 => simp at hleft
  | case2 last =>
      obtain rfl : k = 0 := by
        simp at hleft
        omega
      simp [parentPreimages]
  | case3 left right rest ih =>
      cases k with
      | zero => simp [parentPreimages]
      | succ k =>
          simp only [List.length_cons] at hleft
          simp only [parentPreimages, Nat.mul_add, Nat.mul_one, List.getElem_cons_succ]
          exact List.mem_cons_of_mem _ (ih (by omega))

/-- The node that an index leads to is the left or the right child of the one that half the index leads
to, by the lowest bit. -/
theorem getElem?_landing {level : List Digest} {index k : Nat} (hwide : 1 < level.length)
    (hk : landing ((level.length + 1) / 2) (index / 2) = k) (hleft : 2 * k < level.length) :
    level[landing level.length index]?
      = some (if index % 2 = 1 then level[2 * k + 1]?.getD level[2 * k] else level[2 * k]) := by
  rw [landing_of_one_lt hwide, hk]
  by_cases hbit : index % 2 = 1
  · rw [if_pos hbit, hbit]
    by_cases hpair : 2 * k + 1 < level.length
    · rw [Nat.min_eq_right (by omega), List.getElem?_eq_getElem hpair, Option.getD_some]
    · -- a last node without neighbour
      have hlast : min (level.length - 1) (2 * k + 1) = 2 * k := by omega
      have hnone : level[2 * k + 1]? = none := List.getElem?_eq_none (by omega)
      rw [hlast, hnone, Option.getD_none, List.getElem?_eq_getElem hleft]
  · have hplace : min (level.length - 1) (2 * k + index % 2) = 2 * k := by omega
    rw [if_neg hbit, hplace, List.getElem?_eq_getElem hleft]

section

variable {leafIndex : UInt64} {strings : List Bytes}

theorem pairPreimage_positional (height : Nat) (accumulated sibling : Digest) :
    pairPreimage (.positional leafIndex) height accumulated sibling
      = if leafIndex.toNat / 2 ^ height % 2 = 1 then nodePreimage sibling accumulated
        else nodePreimage accumulated sibling := by
  rw [pairPreimage, SiblingOrder.arrange]
  by_cases hbit : leafIndex.toNat / 2 ^ height % 2 = 1
  · simp [Nat.testBit_eq_decide_div_mod_eq, hbit]
  · simp [Nat.testBit_eq_decide_div_mod_eq, hbit]

/-- A proof with one sibling for each level above a level starts, when it leads to the topmost node, from
the node of that level that its index leads to; or there is a collision. -/
theorem node_or_collision_of_foldProof {level proof : List Digest} {height : Nat}
    {accumulated root : Digest} (hroot : apex? false level = some root)
    (hlength : proof.length + 1 = (levels false level).length)
    (hinner : innerPreimages false level ⊆ strings)
    (hfold : foldPreimages (.positional leafIndex) height accumulated proof ⊆ strings)
    (hlead : foldProof (.positional leafIndex) height accumulated proof = root) :
    level[landing level.length (leafIndex.toNat / 2 ^ height)]? = some accumulated ∨
      Sha256.Collision strings := by
  induction proof generalizing level height accumulated with
  | nil =>
      have hone : level.length ≤ 1 := by
        by_contra hwide
        have habove : 0 < (levels false (pairUp false level)).length :=
          List.length_pos_of_mem (List.mem_of_getElem? (levels_zero false (pairUp false level)))
        rw [levels_of_one_lt_length (by omega), List.length_cons, List.length_nil] at hlength
        omega
      rw [apex?, levels_of_length_le_one hone, List.flatten_singleton] at hroot
      obtain ⟨single, rfl⟩ : ∃ single, level = [single] :=
        List.length_eq_one_iff.1 (Nat.le_antisymm hone
          (List.length_pos_of_mem (List.mem_of_getLast? hroot)))
      left
      rw [← hlead] at hroot
      rw [landing_of_le_one hone]
      exact hroot
  | cons sibling rest ih =>
      have hwide : 1 < level.length := by
        by_contra hone
        rw [levels_of_length_le_one (by omega), List.length_cons, List.length_singleton] at hlength
        omega
      rw [levels_of_one_lt_length hwide, List.length_cons, List.length_cons] at hlength
      rw [innerPreimages_of_one_lt_length hwide] at hinner
      obtain ⟨hparents, habove⟩ := List.append_subset.1 hinner
      obtain ⟨hstring, hrest⟩ := List.cons_subset.1 hfold
      rcases ih ((apex?_pairUp hwide).trans hroot) (by omega) habove hrest hlead
        with hparent | hcollision
      · -- the parent stands where half the index leads, and its children are known
        rw [pairUp_length, Nat.pow_succ, ← Nat.div_div_eq_div_mul] at hparent
        obtain ⟨hk, hnode⟩ := List.getElem?_eq_some_iff.1 hparent
        have hleft : 2 * landing ((level.length + 1) / 2) (leafIndex.toNat / 2 ^ height / 2)
            < level.length := by
          rw [pairUp_length] at hk
          omega
        rw [pairUp_getElem hk hleft, parent_eq_hash] at hnode
        rw [getElem?_landing hwide rfl hleft, Option.some.injEq]
        refine (Sha256.eq_or_collision hstring (hparents (parentPreimage_mem hleft))
          hnode.symm).imp_left fun hsame => ?_
        rw [pairPreimage_positional] at hsame
        by_cases hbit : leafIndex.toNat / 2 ^ height % 2 = 1
        · rw [if_pos hbit] at hsame ⊢
          exact (nodePreimage_injective hsame).2.symm
        · rw [if_neg hbit] at hsame ⊢
          exact (nodePreimage_injective hsame).1.symm
      · exact .inr hcollision

/-- A leaf from which a proof leads to the root by the bits of an index is that of the item which the index
leads to, and the proof has one sibling for each level above the leaves; or there is a collision. -/
theorem item_at_landing_or_collision {items : List Bytes} {item : Bytes} {proof : List Digest}
    {root : Digest} (hroot : (Tree.ofItems items false).root? = some root)
    (hverify : verifyWithOrder (.positional leafIndex) (leafHash item) proof root = true)
    (htree : Tree.preimages items false ⊆ strings) (hleaf : leafPreimage item ∈ strings)
    (hfold : foldPreimages (.positional leafIndex) 0 (leafHash item) proof ⊆ strings) :
    (proof.length = Nat.clog 2 items.length ∧
      items[landing items.length leafIndex.toNat]? = some item) ∨ Sha256.Collision strings := by
  rcases item_of_verified_proof hroot hverify htree hleaf hfold with ⟨hmem, hlength⟩ | hcollision
  · obtain ⟨hleaves, hinner⟩ := List.append_subset.1 htree
    rw [Tree.ofItems_root?] at hroot
    have hdepth : proof.length = Nat.clog 2 items.length := by
      rw [levels_length (List.ne_nil_of_mem (List.mem_map_of_mem hmem)), List.length_map]
        at hlength
      omega
    rcases node_or_collision_of_foldProof hroot hlength hinner hfold (verifyWithOrder_iff.1 hverify)
      with hnode | hcollision
    · rw [Nat.pow_zero, Nat.div_one, List.length_map, List.getElem?_map] at hnode
      obtain ⟨other, hother, hhash⟩ := Option.map_eq_some_iff.1 hnode
      have hstring : leafPreimage other ∈ strings :=
        hleaves (List.mem_map_of_mem (List.mem_of_getElem? hother))
      refine (Sha256.eq_or_collision hstring hleaf hhash).imp_left fun hsame => ?_
      rw [hother, leafPreimage_injective hsame]
      exact ⟨hdepth, rfl⟩
    · exact .inr hcollision
  · exact .inr hcollision

/-! ## The proofs that pass -/

/-- The sibling of the node that an index leads to gives its parent, whichever side the index says. -/
theorem pairHash_entryAt {level : List Digest} {index height : Nat} (hwide : 1 < level.length)
    (hindex : index < level.length)
    (hlanding : landing level.length (leafIndex.toNat / 2 ^ height) = index)
    (hhalf : index / 2 < (pairUp false level).length) :
    pairHash (.positional leafIndex) height level[index] (entryAt level index hindex).sibling
      = (pairUp false level)[index / 2] := by
  rw [← step_entryAt hindex hhalf, pairHash_positional, Path.step, Nat.testBit_eq_decide_div_mod_eq]
  have hplace := landing_of_one_lt hwide (leafIndex.toNat / 2 ^ height)
  have habove := landing_lt (show 0 < (level.length + 1) / 2 by omega)
    (leafIndex.toNat / 2 ^ height / 2)
  rw [hlanding] at hplace
  by_cases heven : index % 2 = 0
  · by_cases hbit : leafIndex.toNat / 2 ^ height % 2 = 1
    · -- a right turn that leads to a left child: the node has no neighbour but itself
      have hnone : level[index + 1]? = none := List.getElem?_eq_none (by omega)
      simp [entryAt, heven, hbit, hnone]
    · simp [entryAt, heven, hbit]
  · have hbit : leafIndex.toNat / 2 ^ height % 2 = 1 := by omega
    simp [entryAt, heven, hbit]

/-- The siblings on the way up from a node lead to the topmost node for every index that leads to the
node. -/
theorem foldProof_climb {level : List Digest} {index height : Nat} (hindex : index < level.length)
    (hlanding : landing level.length (leafIndex.toNat / 2 ^ height) = index) :
    apex? false level
      = some (foldProof (.positional leafIndex) height level[index]
        (climb false level index hindex).siblings) := by
  by_cases hone : level.length ≤ 1
  · obtain ⟨node, rfl⟩ := List.length_eq_one_iff.1 (show level.length = 1 by omega)
    obtain rfl : index = 0 := by simpa using hindex
    rw [apex?_singleton, climb_of_length_le_one hindex hone]
    rfl
  · have hwide : 1 < level.length := by omega
    have hhalf : index / 2 < (pairUp false level).length := by
      rw [pairUp_length]
      omega
    have habove : landing (pairUp false level).length (leafIndex.toNat / 2 ^ (height + 1))
        = index / 2 := by
      rw [pairUp_length, Nat.pow_succ, ← Nat.div_div_eq_div_mul, ← landing_half hwide, hlanding]
    rw [climb_of_one_lt_length hindex hwide, ← apex?_pairUp hwide, foldProof_climb hhalf habove,
      ← pairHash_entryAt hwide hindex hlanding hhalf]
    rfl
termination_by level.length
decreasing_by
  rw [pairUp_length]
  omega

end

/-- A proof that leads to the root of an unsorted tree by the bits of an index has one sibling for each
level above the leaves and starts from the item that the index leads to, which is its own item when the
index is in the tree; or two different strings with the same hash are found among those hashed for the
tree and for the check.  Only the bits of these levels are looked at, and the proof that the tree gives for
an item passes for every index that leads to it. -/
theorem verified_item_at_landing (items : List Bytes) (hitems : items ≠ []) :
    ∃ root, (Tree.ofItems items false).root? = some root ∧
      (∀ (item : Bytes) (leafIndex : UInt64) (proof : List Digest),
        verifyWithOrder (.positional leafIndex) (leafHash item) proof root = true →
          (proof.length = Nat.clog 2 items.length ∧
            items[landing items.length leafIndex.toNat]? = some item ∧
            (leafIndex.toNat < items.length → items[leafIndex.toNat]? = some item)) ∨
          Sha256.Collision (Tree.preimages items false ++ leafPreimage item
            :: foldPreimages (.positional leafIndex) 0 (leafHash item) proof)) ∧
      (∀ index : Nat, landing items.length (index % 2 ^ Nat.clog 2 items.length)
        = landing items.length index) ∧
      ∀ leafIndex : UInt64, ∃ item proof,
        items[landing items.length leafIndex.toNat]? = some item ∧
        (Tree.ofItems items false).proof? (landing items.length leafIndex.toNat) = some proof ∧
        verifyWithOrder (.positional leafIndex) (leafHash item) proof root = true := by
  have hwidth : 0 < items.length := List.length_pos_iff.2 hitems
  obtain ⟨_, -, -, hroot⟩ := @Tree.path?_leads_to_root items false 0 hwidth
  refine ⟨_, hroot, ?_, landing_mod_two_pow items.length, ?_⟩
  · intro item leafIndex proof hverify
    obtain ⟨hleaf, hfold⟩ := List.cons_subset.1 (List.subset_append_right
      (Tree.preimages items false)
      (leafPreimage item :: foldPreimages (.positional leafIndex) 0 (leafHash item) proof))
    refine (item_at_landing_or_collision hroot hverify (List.subset_append_left _ _) hleaf
      hfold).imp_left ?_
    rintro ⟨hdepth, hitem⟩
    refine ⟨hdepth, hitem, fun hinside => ?_⟩
    rwa [landing_of_lt hinside] at hitem
  · intro leafIndex
    have hplace : landing items.length leafIndex.toNat < items.length := landing_lt hwidth _
    have hlanding : landing (items.map leafHash).length (leafIndex.toNat / 2 ^ 0)
        = landing items.length leafIndex.toNat := by
      rw [List.length_map, Nat.pow_zero, Nat.div_one]
    have hleaf : landing items.length leafIndex.toNat < (items.map leafHash).length := by
      simpa using hplace
    have hlead := foldProof_climb hleaf hlanding
    refine ⟨items[landing items.length leafIndex.toNat], (climb false _ _ hleaf).siblings,
      List.getElem?_eq_getElem hplace, ?_, ?_⟩
    · rw [Tree.proof?, Tree.ofItems_path? hplace, Option.map_some]
    · rw [Tree.ofItems_root?, hlead, List.getElem_map] at hroot
      rw [verifyWithOrder_iff]
      exact Option.some.inj hroot

/-- The index leads to the third of three leaves, with a right turn at a node without neighbour and a bit
above the last level; with the tree's own proof of that leaf it passes. -/
theorem third_item_at_outer_index :
    let items : List Bytes := [[1], [2], [3]]
    ∃ root proof, (Tree.ofItems items false).root? = some root ∧
      (Tree.ofItems items false).proof? 2 = some proof ∧
      verifyWithOrder (.positional 7) (leafHash [3]) proof root = true ∧
      ((proof.length = 2 ∧ items[landing 3 7]? = some [3]) ∨
        Sha256.Collision (Tree.preimages items false ++ leafPreimage [3]
          :: foldPreimages (.positional 7) 0 (leafHash [3]) proof)) := by
  intro items
  obtain ⟨root, hroot, hbound, -, hpasses⟩ := verified_item_at_landing items (by decide)
  have hlanding : landing items.length (7 : UInt64).toNat = 2 := by
    change landing 3 7 = 2
    rw [landing_of_one_lt (by decide), landing_of_one_lt (by decide), landing_of_le_one (by decide)]
    rfl
  obtain ⟨item, proof, hitem, hproof, hverify⟩ := hpasses 7
  rw [hlanding] at hitem hproof
  obtain rfl : [3] = item := Option.some.inj hitem
  refine ⟨root, proof, hroot, hproof, hverify, (hbound [3] 7 proof hverify).imp_left ?_⟩
  rintro ⟨hdepth, hleads, -⟩
  exact ⟨hdepth.trans (by decide), hleads⟩

/-- Two leaves have no leaf at index `2`, and still the proof of the first one passes for it; no two of the
strings that are hashed collide. -/
theorem verified_at_index_outside :
    let items : List Bytes := [[1], [2]]
    let proof := [leafHash [2]]
    ∃ root, (Tree.ofItems items false).root? = some root ∧
      verifyWithOrder (.positional 2) (leafHash [1]) proof root = true ∧
      items[(2 : UInt64).toNat]? = none ∧
      ¬Sha256.Collision (Tree.preimages items false ++ leafPreimage [1]
        :: foldPreimages (.positional 2) 0 (leafHash [1]) proof) := by
  intro items proof
  let table : List Bytes :=
    [leafPreimage [1], leafPreimage [2], nodePreimage (leafHash [1]) (leafHash [2])]
  have hroot : (Tree.ofItems items false).root? = some (nodeHash (leafHash [1]) (leafHash [2])) := by
    rw [Tree.ofItems_root?, ← apex?_pairUp (by decide)]
    exact apex?_singleton false (nodeHash (leafHash [1]) (leafHash [2]))
  -- the second bit of the index is not looked at
  have hpair : pairPreimage (.positional 2) 0 (leafHash [1]) (leafHash [2])
      = nodePreimage (leafHash [1]) (leafHash [2]) := by
    rw [pairPreimage_positional, if_neg (by decide)]
  have hverify : foldProof (.positional 2) 0 (leafHash [1]) proof
      = nodeHash (leafHash [1]) (leafHash [2]) := congrArg Sha256.hash hpair
  have hfold : foldPreimages (.positional 2) 0 (leafHash [1]) proof
      = [nodePreimage (leafHash [1]) (leafHash [2])] := congrArg (fun string => [string]) hpair
  have htree : Tree.preimages items false = table := by
    rw [Tree.preimages, innerPreimages_of_one_lt_length (by decide), innerPreimages,
      if_pos (by decide)]
    rfl
  -- the hashes differ in their first bytes
  have hbytes : (table.map Sha256.hash).map (fun digest => digest.toList.headD 0)
      = [180, 252, 107] := by
    decide +kernel
  have hnodup : ((table.map Sha256.hash).map (fun digest => digest.toList.headD 0)).Nodup := by
    rw [hbytes]
    decide
  have hstrings : Tree.preimages items false
      ++ leafPreimage [1] :: foldPreimages (.positional 2) 0 (leafHash [1]) proof ⊆ table := by
    rw [htree, hfold]
    exact List.append_subset.2 ⟨List.Subset.refl _, List.cons_subset.2
      ⟨.head _, List.cons_subset.2 ⟨.tail _ (.tail _ (.head _)), List.nil_subset _⟩⟩⟩
  exact ⟨_, hroot, verifyWithOrder_iff.2 hverify, rfl,
    Sha256.not_collision_of_nodup hstrings (.of_map _ hnodup)⟩

end Surety.Merkle
