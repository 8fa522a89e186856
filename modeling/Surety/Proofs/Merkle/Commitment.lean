import Surety.Proofs.Merkle.Binding
import Surety.Proofs.Merkle.Completeness

/-!
# A root commits to the items of its tree

Two trees with the same root are over the same items, or two different strings with the same hash turn up
among the strings that were hashed for them.  The two trees may differ in the number of their leaves and
in the way in which they order children.

* `ascent_of_mem_level` says that every node of a tree has a way up to the root, which the other tree
  can be asked to walk back down.
* `levels_eq_or_collision` compares two unsorted trees of one size level by level, from the root down.
* `items_of_root` is the result: the same set of items, and the same list when both trees are
  unsorted and have the same number of leaves.

Less than that does not give the same list.  A sorted tree hides the order of neighbours, and an unsorted
tree hides how often its last item is repeated, since a last node without neighbour is paired with itself;
`items_of_three_and_four_leaves` has two such trees.
-/

namespace Surety.Merkle

/-! ## The way up from a node -/

/-- Every node of a level is a child of some parent, with the string that was hashed for it. -/
theorem exists_parent_of_mem {sorted : Bool} {level : List Digest} {node : Digest}
    (hnode : node ∈ level) :
    ∃ left right, nodePreimage left right ∈ parentPreimages sorted level ∧
      (node = left ∨ node = right) ∧ nodeHash left right ∈ pairUp sorted level := by
  -- the string of two neighbours has both of them as children, in one order or the other
  have hparent : ∀ left right : Digest, (node = left ∨ node = right) →
      ∃ first second, parentPreimage sorted left right = nodePreimage first second ∧
        (node = first ∨ node = second) ∧ parent sorted left right = nodeHash first second := by
    intro left right hchild
    unfold parentPreimage parent
    split
    · exact ⟨right, left, rfl, hchild.symm, rfl⟩
    · exact ⟨left, right, rfl, hchild, rfl⟩
  induction level using pairUp.induct with
  | case1 => cases hnode
  | case2 last =>
      obtain ⟨first, second, hstring, hchild, hhash⟩ :=
        hparent last last (.inl (List.mem_singleton.1 hnode))
      refine ⟨first, second, ?_, hchild, ?_⟩
      · rw [parentPreimages, hstring]
        exact List.mem_singleton_self _
      · rw [pairUp, hhash]
        exact List.mem_singleton_self _
  | case3 left right rest ih =>
      have hcases : (node = left ∨ node = right) ∨ node ∈ rest := by
        simpa [or_assoc] using hnode
      rcases hcases with hpair | hrest
      · obtain ⟨first, second, hstring, hchild, hhash⟩ := hparent left right hpair
        refine ⟨first, second, ?_, hchild, ?_⟩
        · rw [parentPreimages, hstring]
          exact List.mem_cons_self
        · rw [pairUp, hhash]
          exact List.mem_cons_self
      · obtain ⟨first, second, hstring, hchild, hhash⟩ := ih hrest
        exact ⟨first, second, List.mem_cons_of_mem _ hstring, hchild,
          List.mem_cons_of_mem _ hhash⟩

theorem innerPreimages_of_one_lt_length {sorted : Bool} {level : List Digest}
    (h : 1 < level.length) :
    innerPreimages sorted level
      = parentPreimages sorted level ++ innerPreimages sorted (pairUp sorted level) := by
  rw [innerPreimages, if_neg (by omega)]

/-- From every node of a level there is a way up to the topmost node. -/
theorem ascent_of_mem_level {sorted : Bool} {level : List Digest} {strings : List Bytes}
    {node root : Digest} (hroot : apex? sorted level = some root)
    (hinner : innerPreimages sorted level ⊆ strings) (hnode : node ∈ level) :
    ∃ steps, Ascent strings steps node root := by
  by_cases hone : level.length ≤ 1
  · obtain ⟨single, rfl⟩ : ∃ single, level = [single] :=
      List.length_eq_one_iff.1 (Nat.le_antisymm hone (List.length_pos_of_mem hnode))
    obtain rfl : node = single := List.mem_singleton.1 hnode
    obtain rfl : node = root := by simpa [apex?_singleton] using hroot
    exact ⟨0, .refl node⟩
  · have hwide : 1 < level.length := by omega
    rw [innerPreimages_of_one_lt_length hwide] at hinner
    obtain ⟨hparents, habove⟩ := List.append_subset.1 hinner
    obtain ⟨left, right, hstring, hchild, hmem⟩ := @exists_parent_of_mem sorted level node hnode
    obtain ⟨steps, hrest⟩ := ascent_of_mem_level ((apex?_pairUp hwide).trans hroot) habove hmem
    exact ⟨steps + 1, .step (hparents hstring) hchild hrest⟩
termination_by level.length
decreasing_by
  rw [pairUp_length]
  omega

/-- An item of one tree is an item of any other tree with the same root, or there is a collision. -/
theorem item_of_common_root {items others strings : List Bytes} {sorted sorted' : Bool} {item : Bytes}
    (hroot : (Tree.ofItems items sorted).root? = (Tree.ofItems others sorted').root?)
    (htree : Tree.preimages items sorted ⊆ strings)
    (htree' : Tree.preimages others sorted' ⊆ strings) (hitem : item ∈ items) :
    item ∈ others ∨ Sha256.Collision strings := by
  obtain ⟨hleaves, hinner⟩ := List.append_subset.1 htree
  have hleaf : leafPreimage item ∈ strings := hleaves (List.mem_map_of_mem hitem)
  obtain ⟨_, -, -, hsome⟩ :=
    @Tree.path?_leads_to_root items sorted 0 (List.length_pos_of_mem hitem)
  have hapex := (Tree.ofItems_root? items sorted).symm.trans hsome
  obtain ⟨steps, hascent⟩ :=
    ascent_of_mem_level hapex hinner (List.mem_map_of_mem hitem : leafHash item ∈ _)
  exact (item_of_ascent hascent (hroot.symm.trans hsome) htree' hleaf).imp_left And.left

/-! ## Unsorted trees of one size -/

/-- Without sorting, the strings hashed for the parents of a level determine a level of known length. -/
theorem level_eq_of_parentPreimages_eq {level other : List Digest}
    (hlength : level.length = other.length)
    (h : parentPreimages false level = parentPreimages false other) : level = other := by
  induction level using pairUp.induct generalizing other with
  | case1 => exact (List.length_eq_zero_iff.1 hlength.symm).symm
  | case2 last =>
      obtain ⟨last', rfl⟩ := List.length_eq_one_iff.1 hlength.symm
      have hnode : nodePreimage last last = nodePreimage last' last' :=
        List.head_eq_of_cons_eq h
      rw [(nodePreimage_injective hnode).1]
  | case3 left right rest ih =>
      obtain ⟨left', others, rfl⟩ := List.exists_cons_of_length_eq_add_one hlength.symm
      have hothers : others.length = rest.length + 1 := by simpa using hlength.symm
      obtain ⟨right', rest', rfl⟩ := List.exists_cons_of_length_eq_add_one hothers
      have hrest : rest = rest' := ih (by simpa using hlength) (List.tail_eq_of_cons_eq h)
      have hnode : nodePreimage left right = nodePreimage left' right' := List.head_eq_of_cons_eq h
      obtain ⟨rfl, rfl⟩ := nodePreimage_injective hnode
      rw [hrest]

/-- Two levels of one length with the same topmost node are the same, or there is a collision. -/
theorem levels_eq_or_collision {level other : List Digest} {strings : List Bytes}
    (hlength : level.length = other.length) (hroot : apex? false level = apex? false other)
    (hinner : innerPreimages false level ⊆ strings)
    (hinner' : innerPreimages false other ⊆ strings) : level = other ∨ Sha256.Collision strings := by
  by_cases hone : level.length ≤ 1
  · rw [apex?, apex?, levels_of_length_le_one hone, levels_of_length_le_one (by omega),
      List.flatten_singleton, List.flatten_singleton] at hroot
    left
    rcases Nat.le_one_iff_eq_zero_or_eq_one.1 hone with hempty | hsingle
    · rw [List.length_eq_zero_iff.1 hempty, List.length_eq_zero_iff.1 (hlength.symm.trans hempty)]
    · obtain ⟨node, rfl⟩ := List.length_eq_one_iff.1 hsingle
      obtain ⟨node', rfl⟩ := List.length_eq_one_iff.1 (hlength.symm.trans hsingle)
      simpa using hroot
  · have hwide : 1 < level.length := by omega
    rw [innerPreimages_of_one_lt_length hwide] at hinner
    rw [innerPreimages_of_one_lt_length (by omega)] at hinner'
    obtain ⟨hparents, habove⟩ := List.append_subset.1 hinner
    obtain ⟨hparents', habove'⟩ := List.append_subset.1 hinner'
    rw [← apex?_pairUp hwide, ← apex?_pairUp (by omega : 1 < other.length)] at hroot
    have hnext : (pairUp false level).length = (pairUp false other).length := by
      rw [pairUp_length, pairUp_length, hlength]
    rcases levels_eq_or_collision hnext hroot habove habove' with hsame | hcollision
    · rw [pairUp_eq_hashes, pairUp_eq_hashes] at hsame
      exact (Sha256.lists_eq_or_collision hparents hparents' hsame).imp_left
        (level_eq_of_parentPreimages_eq hlength)
    · exact .inr hcollision
termination_by level.length
decreasing_by
  rw [pairUp_length]
  omega

/-- Two unsorted trees over equally many items with the same root are over the same list, or there is a
collision. -/
theorem items_eq_of_common_root {items others strings : List Bytes}
    (hlength : items.length = others.length)
    (hroot : (Tree.ofItems items false).root? = (Tree.ofItems others false).root?)
    (htree : Tree.preimages items false ⊆ strings)
    (htree' : Tree.preimages others false ⊆ strings) :
    items = others ∨ Sha256.Collision strings := by
  obtain ⟨hleaves, hinner⟩ := List.append_subset.1 htree
  obtain ⟨hleaves', hinner'⟩ := List.append_subset.1 htree'
  rw [Tree.ofItems_root?, Tree.ofItems_root?] at hroot
  have hwidth : (items.map leafHash).length = (others.map leafHash).length := by
    rw [List.length_map, List.length_map, hlength]
  rcases levels_eq_or_collision hwidth hroot hinner hinner' with hsame | hcollision
  · have hhashes : (items.map leafPreimage).map Sha256.hash
        = (others.map leafPreimage).map Sha256.hash := by
      rw [List.map_map, List.map_map]
      exact hsame
    exact (Sha256.lists_eq_or_collision hleaves hleaves' hhashes).imp_left
      (List.map_inj_right fun _ _ => leafPreimage_injective).1
  · exact .inr hcollision

/-! ## The commitment -/

/-- Two trees with the same root, each built with or without sorting, are over the same set of items; and
over the same list, if both are unsorted and have equally many leaves; or two different strings with the
same hash are found among those hashed for the two trees. -/
theorem items_of_root {items others : List Bytes} {sorted sorted' : Bool}
    (hroot : (Tree.ofItems items sorted).root? = (Tree.ofItems others sorted').root?) :
    ((∀ item, item ∈ items ↔ item ∈ others) ∧
      (sorted = false → sorted' = false → items.length = others.length → items = others)) ∨
    Sha256.Collision (Tree.preimages items sorted ++ Tree.preimages others sorted') := by
  have htree : Tree.preimages items sorted
      ⊆ Tree.preimages items sorted ++ Tree.preimages others sorted' :=
    List.subset_append_left _ _
  have htree' : Tree.preimages others sorted'
      ⊆ Tree.preimages items sorted ++ Tree.preimages others sorted' :=
    List.subset_append_right _ _
  by_cases hcollision : Sha256.Collision
      (Tree.preimages items sorted ++ Tree.preimages others sorted')
  · exact .inr hcollision
  · refine .inl ⟨fun item => ⟨fun hitem => ?_, fun hitem => ?_⟩, ?_⟩
    · exact (item_of_common_root hroot htree htree' hitem).resolve_right hcollision
    · exact (item_of_common_root hroot.symm htree' htree hitem).resolve_right hcollision
    · rintro rfl rfl hlength
      exact (items_eq_of_common_root hlength hroot htree htree').resolve_right hcollision

/-- Three items and the same with the last one repeated have the same root, without sorting. -/
theorem items_of_three_and_four_leaves :
    let items : List Bytes := [[1], [2], [3]]
    let others : List Bytes := [[1], [2], [3], [3]]
    (Tree.ofItems items false).root? = (Tree.ofItems others false).root? ∧
      ((∀ item, item ∈ items ↔ item ∈ others) ∨
        Sha256.Collision (Tree.preimages items false ++ Tree.preimages others false)) := by
  intro items others
  have hroot : (Tree.ofItems items false).root? = (Tree.ofItems others false).root? := by
    rw [Tree.ofItems_root?, Tree.ofItems_root?, ← apex?_pairUp (by decide),
      ← apex?_pairUp (by decide : 1 < (others.map leafHash).length)]
    rfl
  exact ⟨hroot, (items_of_root hroot).imp_left And.left⟩

end Surety.Merkle
