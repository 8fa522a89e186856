import Mathlib.Tactic.Common
import Surety.Proofs.Merkle.Bounds

/-!
# Every leaf of a tree has a proof

The proof that a tree gives for a leaf leads to the root of the tree, for every number of items and
in both ways of ordering children.

* `foldProof_sorted_siblings` and `foldProof_positional_siblings` say when the siblings alone lead
  to the same hash as the steps with their sides.
* `foldl_climb` says that the steps from a node of a level lead to the topmost node.
* `leaf_proofs_lead_to_root` puts this together with the checked accesses of `Surety.Merkle.Bounds`.

That a wrong item has no proof is not stated here.
-/

namespace Surety.Merkle

/-! ## Siblings with and without sides -/

/-- In a sorted tree the two children may be given in any order. -/
theorem parent_sorted_comm (a b : Digest) : parent true a b = parent true b a := by
  by_cases hab : a < b
  · have hba : ¬ b < a := fun hba => absurd hba (List.lt_asymm hab)
    simp [parent, hab, hba]
  · by_cases hba : b < a
    · simp [parent, hab, hba]
    · have heq : a = b := Bytes32.le_antisymm (List.not_lt.1 hba) (List.not_lt.1 hab)
      rw [heq]

theorem pairHash_sorted (level : Nat) (accumulated sibling : Digest) :
    pairHash .sorted level accumulated sibling = parent true accumulated sibling := by
  have hle : accumulated ≤ sibling ↔ ¬ sibling < accumulated := List.not_lt.symm
  by_cases hlt : sibling < accumulated
  · simp [pairHash, SiblingOrder.arrange, parent, hle, hlt]
  · simp [pairHash, SiblingOrder.arrange, parent, hle, hlt]

theorem pairHash_positional (leafIndex : UInt64) (level : Nat) (accumulated sibling : Digest) :
    pairHash (.positional leafIndex) level accumulated sibling
      = if leafIndex.toNat.testBit level then parent false sibling accumulated
        else parent false accumulated sibling := by
  by_cases hbit : leafIndex.toNat.testBit level = true
  · simp [pairHash, SiblingOrder.arrange, parent, hbit]
  · simp [pairHash, SiblingOrder.arrange, parent, hbit]

/-- In a sorted tree the siblings lead where the steps lead, whatever sides the steps record. -/
theorem foldProof_sorted_siblings (path : Path) (level : Nat) (accumulated : Digest) :
    foldProof .sorted level accumulated path.siblings
      = path.foldl (Path.step true) accumulated := by
  induction path generalizing level accumulated with
  | nil => rfl
  | cons entry rest ih =>
      -- a step with the sibling on the left hashes the same pair the other way round
      have hstep : pairHash .sorted level accumulated entry.sibling
          = Path.step true accumulated entry := by
        rw [pairHash_sorted, Path.step]
        cases entry.side with
        | left => exact parent_sorted_comm _ _
        | right => rfl
      change foldProof .sorted (level + 1) (pairHash .sorted level accumulated entry.sibling)
        (Path.siblings rest) = rest.foldl (Path.step true) (Path.step true accumulated entry)
      rw [hstep, ih]

/-- The bits of an index from `level` on tell the sides of the steps. -/
def Path.Follows (path : Path) (level index : Nat) : Prop :=
  ∀ (k : Nat) (entry : PathEntry), path[k]? = some entry →
    (entry.side = .left ↔ index.testBit (level + k) = true)

theorem Path.Follows.tail {entry : PathEntry} {rest : Path} {level index : Nat}
    (h : Path.Follows (entry :: rest) level index) : Path.Follows rest (level + 1) index := by
  intro k next hnext
  have hbit := h (k + 1) next (by simpa using hnext)
  rwa [show level + (k + 1) = level + 1 + k by omega] at hbit

/-- Without sorting, the siblings lead where the steps lead when the index tells the sides. -/
theorem foldProof_positional_siblings {path : Path} {leafIndex : UInt64} {level : Nat}
    (h : path.Follows level leafIndex.toNat) (accumulated : Digest) :
    foldProof (.positional leafIndex) level accumulated path.siblings
      = path.foldl (Path.step false) accumulated := by
  induction path generalizing level accumulated with
  | nil => rfl
  | cons entry rest ih =>
      have hside := h 0 entry (by simp)
      rw [Nat.add_zero] at hside
      have hstep : pairHash (.positional leafIndex) level accumulated entry.sibling
          = Path.step false accumulated entry := by
        rw [pairHash_positional, Path.step]
        cases hentry : entry.side with
        | left => rw [if_pos (hside.1 hentry)]
        | right =>
            have hbit : ¬ leafIndex.toNat.testBit level = true := by
              intro hbit
              rw [hside.2 hbit] at hentry
              cases hentry
            rw [if_neg hbit]
      change foldProof (.positional leafIndex) (level + 1)
        (pairHash (.positional leafIndex) level accumulated entry.sibling) (Path.siblings rest)
          = rest.foldl (Path.step false) (Path.step false accumulated entry)
      rw [hstep, ih h.tail]

/-! ## The way up through the levels -/

/-- One step up from a node of a level gives its parent in the next level. -/
theorem step_entryAt {sorted : Bool} {level : List Digest} {index : Nat}
    (hindex : index < level.length) (hhalf : index / 2 < (pairUp sorted level).length) :
    Path.step sorted level[index] (entryAt level index hindex)
      = (pairUp sorted level)[index / 2] := by
  rw [pairUp_getElem hhalf (by omega)]
  by_cases heven : index % 2 = 0
  · have hleft : 2 * (index / 2) = index := by omega
    simp only [entryAt, heven, ite_true, Path.step, hleft]
  · -- an odd position has its sibling before it, which is then the left child
    have hleft : 2 * (index / 2) = index - 1 := by omega
    have hright : index - 1 + 1 = index := by omega
    simp only [entryAt, heven, ite_false, Path.step, hleft, hright,
      List.getElem?_eq_getElem hindex, Option.getD_some]

/-- The steps up from any node of a level lead to the topmost node. -/
theorem foldl_climb {sorted : Bool} {level : List Digest} {index : Nat}
    (hindex : index < level.length) :
    apex? sorted level
      = some ((climb sorted level index hindex).foldl (Path.step sorted) level[index]) := by
  by_cases hone : level.length ≤ 1
  · obtain ⟨node, rfl⟩ := List.length_eq_one_iff.1 (show level.length = 1 by omega)
    have hzero : index = 0 := by simpa using hindex
    subst hzero
    rw [apex?_singleton, climb_of_length_le_one hindex (by simp)]
    rfl
  · have hhalf : index / 2 < (pairUp sorted level).length := by
      rw [pairUp_length]
      omega
    rw [climb_of_one_lt_length hindex (by omega), ← apex?_pairUp (by omega), List.foldl_cons,
      step_entryAt hindex hhalf]
    exact foldl_climb hhalf
termination_by level.length
decreasing_by
  rw [pairUp_length]
  omega

/-- The sides of the steps are the bits of the index that the climb starts at. -/
theorem climb_follows {sorted : Bool} {level : List Digest} {index : Nat}
    (hindex : index < level.length) : (climb sorted level index hindex).Follows 0 index := by
  intro k entry hentry
  rw [Nat.zero_add]
  by_cases hone : level.length ≤ 1
  · simp [climb_of_length_le_one hindex hone] at hentry
  · rw [climb_of_one_lt_length hindex (by omega)] at hentry
    cases k with
    | zero =>
        obtain rfl : entryAt level index hindex = entry := by simpa using hentry
        rw [Nat.testBit_zero, entryAt]
        by_cases heven : index % 2 = 0
        · simp [heven]
        · simp [show index % 2 = 1 by omega]
    | succ k =>
        have hrest : entry.side = .left ↔ (index / 2).testBit (0 + k) = true :=
          climb_follows _ k entry (by simpa using hentry)
        rw [Nat.zero_add] at hrest
        rw [Nat.testBit_succ, hrest]
termination_by level.length
decreasing_by
  rw [pairUp_length]
  omega

/-! ## The proofs of a tree -/

theorem Tree.path?_eq_none_iff {tree : Tree} {index : Nat} :
    tree.path? index = none ↔ tree.leafCount ≤ index := by
  unfold Tree.path?
  split <;> simp <;> omega

theorem Tree.proof?_eq_none_iff {tree : Tree} {index : Nat} :
    tree.proof? index = none ↔ tree.leafCount ≤ index := by
  rw [Tree.proof?, Option.map_eq_none_iff, Tree.path?_eq_none_iff]

/-- The steps from a leaf lead to the root. -/
theorem Tree.path?_leads_to_root {items : List Bytes} {sorted : Bool} {index : Nat}
    (hindex : index < items.length) :
    ∃ path, (Tree.ofItems items sorted).path? index = some path ∧ path.Follows 0 index ∧
      (Tree.ofItems items sorted).root?
        = some (path.foldl (Path.step sorted) (leafHash items[index])) := by
  have hleaf : index < (items.map leafHash).length := by simpa using hindex
  refine ⟨_, Tree.ofItems_path? hindex, climb_follows hleaf, ?_⟩
  rw [Tree.ofItems_root?, foldl_climb hleaf, List.getElem_map]

/-- A tree over at least one item has a root, and to it leads the proof of each leaf, by the order
of siblings that the tree was built with; there is no proof for any other index, and neither
building the tree nor finding a proof reads outside its array. -/
theorem leaf_proofs_lead_to_root (items : List Bytes) (hitems : items ≠ []) (sorted : Bool) :
    ∃ root, (Tree.ofItems items sorted).root? = some root ∧
      (∀ (index : Nat) (hindex : index < items.length), ∃ path proof,
        (Tree.ofItems items sorted).path? index = some path ∧
        (Tree.ofItems items sorted).proof? index = some proof ∧
        path.verify (leafHash items[index]) root sorted = true ∧
        (sorted = true → verifyProof (leafHash items[index]) proof root = true) ∧
        (sorted = false → ∀ leafIndex : UInt64, leafIndex.toNat = index →
          verifyWithOrder (.positional leafIndex) (leafHash items[index]) proof root = true)) ∧
      (∀ index : Nat, (Tree.ofItems items sorted).path? index = none ↔ items.length ≤ index) ∧
      (∀ index : Nat, (Tree.ofItems items sorted).proof? index = none ↔ items.length ≤ index) ∧
      checkedTree items sorted = some (Tree.ofItems items sorted).nodes ∧
      ∀ index : Nat, checkedPath (Tree.ofItems items sorted) index
        = some ((Tree.ofItems items sorted).path? index) := by
  have hfirst : 0 < items.length := List.length_pos_iff.2 hitems
  obtain ⟨_, -, -, hroot⟩ := @Tree.path?_leads_to_root items sorted 0 hfirst
  refine ⟨_, hroot, ?_, fun index => Tree.path?_eq_none_iff, fun index => Tree.proof?_eq_none_iff,
    checkedTree_eq items sorted, checkedPath_eq _⟩
  intro index hindex
  obtain ⟨path, hpath, hfollows, hlead⟩ := @Tree.path?_leads_to_root items sorted index hindex
  have hsame := Option.some.inj (hlead.symm.trans hroot)
  refine ⟨path, path.siblings, hpath, by rw [Tree.proof?, hpath, Option.map_some], ?_, ?_, ?_⟩
  · rw [Path.verify, hsame, beq_self_eq_true]
  · intro hsorted
    subst hsorted
    rw [verifyProof, verifyWithOrder_iff, foldProof_sorted_siblings, hsame]
  · intro hsorted leafIndex hleafIndex
    subst hsorted
    rw [← hleafIndex] at hfollows
    rw [verifyWithOrder_iff, foldProof_positional_siblings hfollows, hsame]

/-- The last of three leaves is paired with itself and has a proof all the same. -/
theorem third_of_three_leaf_proofs :
    ∃ root proof, (Tree.ofItems [[1], [2], [3]] false).root? = some root ∧
      (Tree.ofItems [[1], [2], [3]] false).proof? 2 = some proof ∧
      verifyWithOrder (.positional 2) (leafHash [3]) proof root = true := by
  obtain ⟨root, hroot, hproofs, -⟩ :=
    leaf_proofs_lead_to_root [[1], [2], [3]] (by decide) false
  obtain ⟨-, proof, -, hproof, -, -, hpositional⟩ := hproofs 2 (by decide)
  exact ⟨root, proof, hroot, hproof, hpositional rfl 2 (by decide)⟩

end Surety.Merkle
