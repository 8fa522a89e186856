import Mathlib.Tactic.Common
import Surety.Proofs.Merkle.Layout

/-!
# Building and walking with every access checked

The same two loops as in `Surety.Merkle.Tree`, written so that each read of the array may fail: a
position outside the array, a slice that does not fit, or a step without exactly one sibling gives
`none`.  The widths are counted along, and no fact about the array is carried.

* `checkedTree_eq` says that building never fails and gives the array of `Tree.ofItems`.
* `checkedPath_eq` says that walking never fails and gives the answer of `Tree.path?`, for indices
  outside the tree too.
-/

namespace Surety.Merkle

/-- The width of the level above; there is none above a single node. -/
def widthAbove (width : Nat) : Nat := if width = 1 then 0 else (width + 1) / 2

theorem widthAbove_of_le_one {width : Nat} (h : width ≤ 1) : widthAbove width = 0 := by
  unfold widthAbove
  split <;> omega

theorem widthAbove_of_one_lt {width : Nat} (h : 1 < width) :
    widthAbove width = (width + 1) / 2 := by
  unfold widthAbove
  split <;> omega

/-- Append the parents of the nodes from position `offset` of a level on. -/
def checkedParents (sorted : Bool) (nodes : Array Digest) (start width offset : Nat) :
    Option (Array Digest) :=
  if offset < width then do
    let left ← nodes[start + offset]?
    let right ← if offset + 1 < width then nodes[start + offset + 1]? else some left
    checkedParents sorted (nodes.push (parent sorted left right)) start width (offset + 2)
  else some nodes
termination_by width - offset

/-- Append level after level above the one that begins at `start`. -/
def checkedGrow (sorted : Bool) (nodes : Array Digest) (start width : Nat) :
    Option (Array Digest) :=
  if widthAbove width = 0 then some nodes
  else do
    let nodes ← checkedParents sorted nodes start width 0
    checkedGrow sorted nodes (start + width) (widthAbove width)
termination_by width
decreasing_by
  rename_i habove
  have hwide : 1 < width := by
    by_contra hle
    exact habove (widthAbove_of_le_one (by omega))
  rw [widthAbove_of_one_lt hwide]
  omega

/-- The array of the tree over a list of items. -/
def checkedTree (items : List Bytes) (sorted : Bool) : Option (Array Digest) :=
  checkedGrow sorted (items.map leafHash).toArray 0 items.length

/-- The step up from the node at `index` of a level. -/
def checkedEntry (level : Array Digest) (index : Nat) : Option PathEntry := do
  let target ← level[index]?
  if index % 2 = 0 then
    PathEntry.ofSiblings? target none (some (level[index + 1]?.getD target))
  else
    let sibling ← level[index - 1]?
    PathEntry.ofSiblings? target (some sibling) none

/-- The steps up from the node at `index` of the level that begins at `start`. -/
def checkedSteps (nodes : Array Digest) (start width index : Nat) : Option Path :=
  if widthAbove width = 0 then some []
  else if start + width ≤ nodes.size then do
    let entry ← checkedEntry (nodes.extract start (start + width)) index
    let rest ← checkedSteps nodes (start + width) (widthAbove width) (index / 2)
    some (entry :: rest)
  else none
termination_by width
decreasing_by
  rename_i habove _
  have hwide : 1 < width := by
    by_contra hle
    exact habove (widthAbove_of_le_one (by omega))
  rw [widthAbove_of_one_lt hwide]
  omega

/-- The way from the leaf at an index to the root; the inner option is the answer. -/
def checkedPath (tree : Tree) (index : Nat) : Option (Option Path) :=
  if tree.leafCount ≤ index then some none
  else (checkedSteps tree.nodes 0 tree.leafCount index).map some

/-! ## Building -/

theorem checkedParents_eq (sorted : Bool) (nodes : Array Digest) (start width offset : Nat)
    (hstop : start + width ≤ nodes.size) :
    checkedParents sorted nodes start width offset
      = some (pushParents sorted nodes (start + offset) (start + width) hstop) := by
  rw [checkedParents, pushParents]
  by_cases hoffset : offset < width
  · have hleft : nodes[start + offset]? = some nodes[start + offset] :=
      Array.getElem?_eq_getElem (by omega)
    have hlarger : start + width ≤ (nodes.push (parent sorted nodes[start + offset]
        (if hpair : start + offset + 1 < start + width then nodes[start + offset + 1]
          else nodes[start + offset]))).size := by
      rw [Array.size_push]
      omega
    have hrest := checkedParents_eq sorted _ start width (offset + 2) hlarger
    rw [if_pos hoffset, dif_pos (by omega), hleft]
    by_cases hpair : offset + 1 < width
    · have hnext : start + offset + 1 < start + width := by omega
      have hright : nodes[start + (offset + 1)]? = some nodes[start + (offset + 1)] :=
        Array.getElem?_eq_getElem (by omega)
      simpa [hpair, hnext, hright, Nat.add_assoc] using hrest
    · have hnext : ¬ start + offset + 1 < start + width := by omega
      simpa [hpair, hnext, Nat.add_assoc] using hrest
  · rw [if_neg hoffset, dif_neg (by omega)]
termination_by width - offset

theorem checkedGrow_eq (sorted : Bool) (nodes : Array Digest) (start width : Nat)
    (hsize : nodes.size = start + width) :
    checkedGrow sorted nodes start width = some (grow sorted nodes start) := by
  rw [checkedGrow, grow]
  by_cases hone : width ≤ 1
  · rw [if_pos (widthAbove_of_le_one hone), if_pos (by omega)]
  · have habove : widthAbove width = (width + 1) / 2 := widthAbove_of_one_lt (by omega)
    have hparents : checkedParents sorted nodes start width 0
        = some (pushParents sorted nodes start nodes.size (Nat.le_refl _)) := by
      rw [checkedParents_eq sorted nodes start width 0 (by omega)]
      simp only [hsize, Nat.add_zero]
    have hrest := checkedGrow_eq sorted
      (pushParents sorted nodes start nodes.size (Nat.le_refl _)) (start + width)
      ((width + 1) / 2) (by rw [pushParents_size]; omega)
    rw [if_neg (by omega), if_neg (by omega), hparents, habove]
    simpa [hsize] using hrest
termination_by width

/-- Building a tree reads only nodes that are there. -/
theorem checkedTree_eq (items : List Bytes) (sorted : Bool) :
    checkedTree items sorted = some (Tree.ofItems items sorted).nodes := by
  rw [checkedTree, checkedGrow_eq _ _ _ _ (by simp)]
  rfl

/-! ## Walking -/

theorem checkedEntry_eq {nodes : Array Digest} {start width index : Nat}
    (hindex : index < width) (hsize : start + width ≤ nodes.size) :
    checkedEntry (nodes.extract start (start + width)) index
      = some (storedEntry nodes start width index hindex hsize) := by
  have hread : ∀ position (hposition : position < width),
      (nodes.extract start (start + width))[position]? = some nodes[start + position] := by
    intro position hposition
    exact Array.getElem?_extract_of_lt (by omega)
  rw [checkedEntry, hread index hindex, storedEntry]
  by_cases heven : index % 2 = 0
  · by_cases hnext : index + 1 < width
    · simp [heven, hnext, hread (index + 1) hnext, PathEntry.ofSiblings?, Nat.add_assoc]
    · have hnone : (nodes.extract start (start + width))[index + 1]? = none := by
        apply Array.getElem?_eq_none
        rw [Array.size_extract]
        omega
      simp [heven, hnext, hnone, PathEntry.ofSiblings?]
  · have hposition : start + index - 1 = start + (index - 1) := by omega
    simp [heven, hread (index - 1) (by omega), PathEntry.ofSiblings?, hposition]

theorem checkedSteps_eq {nodes : Array Digest} {start width index : Nat} (hindex : index < width)
    (hsize : start + nodeCount width ≤ nodes.size) :
    checkedSteps nodes start width index
      = some (pathFrom nodes start width index hindex hsize) := by
  rw [checkedSteps]
  by_cases hone : width ≤ 1
  · rw [if_pos (widthAbove_of_le_one hone), pathFrom, dif_pos hone]
  · have hwide : 1 < width := by omega
    have habove : widthAbove width = (width + 1) / 2 := widthAbove_of_one_lt hwide
    have hcount := nodeCount_of_one_lt hwide
    have hrest : checkedSteps nodes (start + width) ((width + 1) / 2) (index / 2)
        = some (pathFrom nodes (start + width) ((width + 1) / 2) (index / 2) (by omega)
          (by omega)) :=
      checkedSteps_eq _ _
    rw [if_neg (by omega), if_pos (by omega), checkedEntry_eq hindex (by omega), habove, hrest,
      pathFrom_of_one_lt hindex hsize hwide]
    rfl
termination_by width

/-- Walking up from a leaf reads only nodes that are there. -/
theorem checkedPath_eq (tree : Tree) (index : Nat) :
    checkedPath tree index = some (tree.path? index) := by
  rw [checkedPath, Tree.path?]
  by_cases hindex : index < tree.leafCount
  · rw [if_neg (by omega), dif_pos hindex,
      checkedSteps_eq hindex (by rw [tree.size_eq]; omega), Option.map_some]
  · rw [if_pos (by omega), dif_neg hindex]

end Surety.Merkle
