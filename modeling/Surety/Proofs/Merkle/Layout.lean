import Mathlib.Tactic.Common
import Surety.Merkle.Level

/-!
# Where the levels of a tree stand in its array

The array of a tree is the concatenation of the levels that `levels` describes, leaves first, and
the way up that is read off the array by positions is the way up through those levels.

* `pairUp_getElem` says which two nodes of a level have a given parent.
* `pushParents_toList` and `grow_toList` say what building appends to the array.
* `pathFrom_eq_climb` says that walking up through positions is climbing through levels.

Nothing here depends on the hash function: a parent is any function of its two children.
-/

namespace Surety.Merkle

/-! ## Levels -/

theorem levels_of_length_le_one {sorted : Bool} {level : List Digest} (h : level.length ≤ 1) :
    levels sorted level = [level] := by
  rw [levels, if_pos h]

theorem levels_of_one_lt_length {sorted : Bool} {level : List Digest} (h : 1 < level.length) :
    levels sorted level = level :: levels sorted (pairUp sorted level) := by
  rw [levels, if_neg (by omega)]

/-- The lowest of the levels above and including a level is that level. -/
theorem levels_flatten (sorted : Bool) (level : List Digest) :
    ∃ above, (levels sorted level).flatten = level ++ above := by
  by_cases h : level.length ≤ 1
  · exact ⟨[], by simp [levels_of_length_le_one h]⟩
  · refine ⟨(levels sorted (pairUp sorted level)).flatten, ?_⟩
    rw [levels_of_one_lt_length (by omega), List.flatten_cons]

theorem levels_zero (sorted : Bool) (level : List Digest) :
    (levels sorted level)[0]? = some level := by
  by_cases h : level.length ≤ 1
  · rw [levels_of_length_le_one h]
    rfl
  · rw [levels_of_one_lt_length (by omega)]
    rfl

/-- Every level but the lowest holds the parents of the level below it. -/
theorem levels_succ {sorted : Bool} {level upper : List Digest} {height : Nat}
    (hupper : (levels sorted level)[height + 1]? = some upper) :
    ∃ lower, (levels sorted level)[height]? = some lower ∧ 1 < lower.length ∧
      upper = pairUp sorted lower := by
  by_cases h : level.length ≤ 1
  · simp [levels_of_length_le_one h] at hupper
  · rw [levels_of_one_lt_length (by omega), List.getElem?_cons_succ] at hupper
    cases height with
    | zero =>
        rw [levels_zero, Option.some.injEq] at hupper
        exact ⟨level, levels_zero sorted level, by omega, hupper.symm⟩
    | succ height =>
        obtain ⟨lower, hlower, hwide, heq⟩ := levels_succ hupper
        refine ⟨lower, ?_, hwide, heq⟩
        rw [levels_of_one_lt_length (by omega), List.getElem?_cons_succ]
        exact hlower
termination_by height

/-- A node of the next level is the parent of two neighbours, or of a last node with itself. -/
theorem pairUp_getElem {sorted : Bool} {level : List Digest} {k : Nat}
    (hk : k < (pairUp sorted level).length) (hleft : 2 * k < level.length) :
    (pairUp sorted level)[k]
      = parent sorted level[2 * k] (level[2 * k + 1]?.getD level[2 * k]) := by
  induction level using pairUp.induct generalizing k with
  | case1 => simp at hleft
  | case2 last =>
      have hzero : k = 0 := by
        simp at hleft
        omega
      subst hzero
      simp [pairUp]
  | case3 left right rest ih =>
      cases k with
      | zero => simp [pairUp]
      | succ k =>
          simp only [pairUp, List.length_cons] at hk hleft
          simp only [pairUp, List.getElem_cons_succ, Nat.mul_add, Nat.mul_one]
          exact ih (by omega) (by omega)

/-! ## Building -/

theorem pushParents_toList (sorted : Bool) (nodes : Array Digest) (start stop : Nat)
    (hstop : stop ≤ nodes.size) :
    (pushParents sorted nodes start stop hstop).toList
      = nodes.toList ++ pairUp sorted ((nodes.toList.take stop).drop start) := by
  have hlength : (nodes.toList.take stop).length = stop := by
    rw [List.length_take, Array.length_toList]
    omega
  rw [pushParents]
  split
  · rename_i hstart
    -- what is appended does not reach below `stop`, so the level still to be paired is unchanged
    rw [pushParents_toList, Array.toList_push,
      List.take_append_of_le_length (by simpa using hstop), List.append_assoc]
    congr 1
    have hleft : (nodes.toList.take stop).drop start
        = nodes[start] :: (nodes.toList.take stop).drop (start + 1) := by
      rw [List.drop_eq_getElem_cons (by omega)]
      simp
    by_cases hpair : start + 1 < stop
    · have hright : (nodes.toList.take stop).drop (start + 1)
          = nodes[start + 1] :: (nodes.toList.take stop).drop (start + 2) := by
        rw [List.drop_eq_getElem_cons (by omega)]
        simp
      simp only [hleft, hright, hpair, dite_true, pairUp, List.singleton_append]
    · have hnone : (nodes.toList.take stop).drop (start + 1) = [] :=
        List.drop_eq_nil_of_le (by omega)
      have hrest : (nodes.toList.take stop).drop (start + 2) = [] :=
        List.drop_eq_nil_of_le (by omega)
      simp only [hleft, hnone, hrest, hpair, dite_false, pairUp, List.append_nil]
  · rw [List.drop_eq_nil_of_le (by omega), pairUp, List.append_nil]
termination_by stop - start

theorem grow_toList (sorted : Bool) (nodes : Array Digest) (start : Nat) :
    (grow sorted nodes start).toList
      = nodes.toList.take start ++ (levels sorted (nodes.toList.drop start)).flatten := by
  have hlength : (nodes.toList.drop start).length = nodes.size - start := by simp
  rw [grow]
  split
  · rename_i hlast
    rw [levels_of_length_le_one (by omega)]
    simp
  · rename_i hwide
    have hparents : (pushParents sorted nodes start nodes.size (Nat.le_refl _)).toList
        = nodes.toList ++ pairUp sorted (nodes.toList.drop start) := by
      rw [pushParents_toList, List.take_of_length_le (by simp)]
    have hlevel : 1 < (nodes.toList.drop start).length := by omega
    rw [grow_toList, hparents, List.take_left' (by simp), List.drop_left' (by simp),
      levels_of_one_lt_length hlevel, List.flatten_cons, ← List.append_assoc,
      List.take_append_drop]
termination_by nodes.size - start
decreasing_by
  rw [pushParents_size]
  omega

/-- The array of a tree holds its levels one after another. -/
theorem Tree.ofItems_nodes (items : List Bytes) (sorted : Bool) :
    (Tree.ofItems items sorted).nodes.toList
      = (levels sorted (items.map leafHash)).flatten := by
  simp only [Tree.ofItems, grow_toList, List.take_zero, List.drop_zero, List.nil_append]

/-! ## The topmost node -/

/-- The last node of the levels above and including a level. -/
def apex? (sorted : Bool) (level : List Digest) : Option Digest :=
  (levels sorted level).flatten.getLast?

theorem apex?_singleton (sorted : Bool) (node : Digest) : apex? sorted [node] = some node := by
  rw [apex?, levels_of_length_le_one (by simp)]
  rfl

theorem apex?_pairUp {sorted : Bool} {level : List Digest} (h : 1 < level.length) :
    apex? sorted (pairUp sorted level) = apex? sorted level := by
  have hne : (levels sorted (pairUp sorted level)).flatten ≠ [] := by
    obtain ⟨above, habove⟩ := levels_flatten sorted (pairUp sorted level)
    intro hnil
    rw [habove] at hnil
    have hlen : (pairUp sorted level).length = 0 := by
      rw [List.append_eq_nil_iff.1 hnil |>.1, List.length_nil]
    rw [pairUp_length] at hlen
    omega
  rw [apex?, apex?, levels_of_one_lt_length h, List.flatten_cons, List.getLast?_append,
    List.getLast?_eq_some_getLast hne, Option.some_or]

/-- The topmost node is alone on the last level. -/
theorem levels_getElem?_last {sorted : Bool} {level : List Digest} {root : Digest}
    (hroot : apex? sorted level = some root) :
    (levels sorted level)[(levels sorted level).length - 1]? = some [root] := by
  by_cases h : level.length ≤ 1
  · have hlevel : level.getLast? = some root := by
      rwa [apex?, levels_of_length_le_one h, List.flatten_singleton] at hroot
    match level, h with
    | [], _ => simp at hlevel
    | [node], _ =>
        obtain rfl : node = root := by simpa using hlevel
        rw [levels_of_length_le_one (by simp)]
        rfl
  · have habove := levels_getElem?_last ((apex?_pairUp (by omega)).trans hroot)
    have hpos : 0 < (levels sorted (pairUp sorted level)).length := by
      by_contra hempty
      rw [List.length_eq_zero_iff.1 (show (levels sorted (pairUp sorted level)).length = 0 by
        omega)] at habove
      simp at habove
    rw [levels_of_one_lt_length (by omega), List.length_cons, Nat.add_sub_cancel]
    rw [show (levels sorted (pairUp sorted level)).length
      = (levels sorted (pairUp sorted level)).length - 1 + 1 by omega, List.getElem?_cons_succ]
    exact habove
termination_by level.length
decreasing_by
  rw [pairUp_length]
  omega

theorem Tree.ofItems_root? (items : List Bytes) (sorted : Bool) :
    (Tree.ofItems items sorted).root? = apex? sorted (items.map leafHash) := by
  rw [Tree.root?, apex?, ← Tree.ofItems_nodes, Array.getLast?_toList]

/-! ## Climbing -/

/-- The step up from the node at `index` of a level. -/
def entryAt (level : List Digest) (index : Nat) (hindex : index < level.length) : PathEntry :=
  if index % 2 = 0 then ⟨level[index], .right, level[index + 1]?.getD level[index]⟩
  else ⟨level[index], .left, level[index - 1]⟩

/-- The steps from the node at `index` of a level up through all levels above it. -/
def climb (sorted : Bool) (level : List Digest) (index : Nat) (hindex : index < level.length) :
    Path :=
  if level.length ≤ 1 then []
  else entryAt level index hindex
    :: climb sorted (pairUp sorted level) (index / 2) (by rw [pairUp_length]; omega)
termination_by level.length
decreasing_by
  rw [pairUp_length]
  omega

theorem climb_of_length_le_one {sorted : Bool} {level : List Digest} {index : Nat}
    (hindex : index < level.length) (h : level.length ≤ 1) :
    climb sorted level index hindex = [] := by
  rw [climb, if_pos h]

theorem climb_of_one_lt_length {sorted : Bool} {level : List Digest} {index : Nat}
    (hindex : index < level.length) (h : 1 < level.length) :
    climb sorted level index hindex
      = entryAt level index hindex
        :: climb sorted (pairUp sorted level) (index / 2) (by rw [pairUp_length]; omega) := by
  rw [climb, if_neg (by omega)]

/-- A level that begins at `start` of an array is read there position by position. -/
theorem getElem_of_drop_eq {sorted : Bool} {nodes : Array Digest} {start index : Nat}
    {level : List Digest} (hdrop : nodes.toList.drop start = (levels sorted level).flatten)
    (hindex : index < level.length) (hbound : start + index < nodes.size) :
    nodes[start + index] = level[index] := by
  obtain ⟨above, habove⟩ := levels_flatten sorted level
  have hread : (nodes.toList.drop start)[index]? = level[index]? := by
    rw [hdrop, habove, List.getElem?_append_left hindex]
  rw [List.getElem?_drop, List.getElem?_eq_getElem (by simpa using hbound),
    List.getElem?_eq_getElem hindex] at hread
  simpa using hread

/-- The step up from the node at `index` of the level of the given width that begins at `start`. -/
def storedEntry (nodes : Array Digest) (start width index : Nat) (hindex : index < width)
    (hsize : start + width ≤ nodes.size) : PathEntry :=
  if index % 2 = 0 then
    ⟨nodes[start + index], .right,
      if hnext : index + 1 < width then nodes[start + index + 1] else nodes[start + index]⟩
  else ⟨nodes[start + index], .left, nodes[start + index - 1]⟩

theorem nodeCount_of_one_lt {width : Nat} (h : 1 < width) :
    nodeCount width = width + nodeCount ((width + 1) / 2) := by
  rw [nodeCount, if_neg (by omega)]

theorem pathFrom_of_one_lt {nodes : Array Digest} {start width index : Nat} (hindex : index < width)
    (hsize : start + nodeCount width ≤ nodes.size) (h : 1 < width) :
    pathFrom nodes start width index hindex hsize
      = storedEntry nodes start width index hindex (by rw [nodeCount_of_one_lt h] at hsize; omega)
        :: pathFrom nodes (start + width) ((width + 1) / 2) (index / 2) (by omega)
          (by rw [nodeCount_of_one_lt h] at hsize; omega) := by
  rw [pathFrom, dif_neg (by omega)]
  rfl

/-- The step that is read off the array is the step in the level that stands there. -/
theorem storedEntry_eq_entryAt {nodes : Array Digest} {start index : Nat} {level : List Digest}
    (hindex : index < level.length) (hsize : start + level.length ≤ nodes.size)
    (hread : ∀ (k : Nat) (_ : k < level.length), nodes[start + k] = level[k]) :
    storedEntry nodes start level.length index hindex hsize = entryAt level index hindex := by
  have htarget : nodes[start + index] = level[index] := hread index hindex
  unfold storedEntry entryAt
  by_cases heven : index % 2 = 0
  · rw [if_pos heven, if_pos heven]
    by_cases hnext : index + 1 < level.length
    · have hsibling : nodes[start + (index + 1)] = level[index + 1] := hread _ hnext
      simp only [hnext, dite_true, htarget, List.getElem?_eq_getElem hnext, Option.getD_some,
        ← hsibling, Nat.add_assoc]
    · have hnone : level[index + 1]? = none := List.getElem?_eq_none (by omega)
      simp only [hnext, dite_false, htarget, hnone, Option.getD_none]
  · have hsibling : nodes[start + (index - 1)] = level[index - 1] := hread _ (by omega)
    have hposition : start + index - 1 = start + (index - 1) := by omega
    rw [if_neg heven, if_neg heven]
    simp only [hposition, htarget, hsibling]

theorem pathFrom_eq_climb {sorted : Bool} {nodes : Array Digest} {start index : Nat}
    {level : List Digest} (hindex : index < level.length)
    (hsize : start + nodeCount level.length ≤ nodes.size)
    (hdrop : nodes.toList.drop start = (levels sorted level).flatten) :
    pathFrom nodes start level.length index hindex hsize = climb sorted level index hindex := by
  by_cases hone : level.length ≤ 1
  · rw [pathFrom, dif_pos hone, climb_of_length_le_one hindex hone]
  · have hwide : 1 < level.length := by omega
    have hcount := nodeCount_of_one_lt hwide
    have hlevel : start + level.length ≤ nodes.size := by omega
    have hentry : storedEntry nodes start level.length index hindex hlevel
        = entryAt level index hindex :=
      storedEntry_eq_entryAt hindex hlevel fun k hk => getElem_of_drop_eq hdrop hk (by omega)
    -- behind this level of the array stand the levels above it
    have habove : nodes.toList.drop (start + level.length)
        = (levels sorted (pairUp sorted level)).flatten := by
      rw [← List.drop_drop, hdrop, levels_of_one_lt_length hwide, List.flatten_cons,
        List.drop_left]
    have hwidth : (pairUp sorted level).length = (level.length + 1) / 2 := pairUp_length _ _
    have hrest := @pathFrom_eq_climb sorted nodes (start + level.length) (index / 2)
      (pairUp sorted level) (by omega) (by rw [hwidth]; omega) habove
    rw [pathFrom_of_one_lt hindex hsize hwide, climb_of_one_lt_length hindex hwide, hentry]
    simp only [hwidth] at hrest
    rw [hrest]
termination_by level.length
decreasing_by
  rw [pairUp_length]
  omega

/-- The way up from a leaf of a tree climbs through the levels above the leaves. -/
theorem Tree.ofItems_path? {items : List Bytes} {sorted : Bool} {index : Nat}
    (hindex : index < items.length) :
    (Tree.ofItems items sorted).path? index
      = some (climb sorted (items.map leafHash) index (by simpa using hindex)) := by
  have hleaves : (Tree.ofItems items sorted).nodes.toList.drop 0
      = (levels sorted (items.map leafHash)).flatten := by
    rw [List.drop_zero, Tree.ofItems_nodes]
  have hwidth : (items.map leafHash).length = (Tree.ofItems items sorted).leafCount :=
    List.length_map _
  have hclimb := @pathFrom_eq_climb sorted (Tree.ofItems items sorted).nodes 0 index
    (items.map leafHash) (by simpa using hindex) (by rw [hwidth, Tree.size_eq]; omega) hleaves
  simp only [hwidth] at hclimb
  rw [Tree.path?, dif_pos (show index < (Tree.ofItems items sorted).leafCount from hindex), hclimb]

end Surety.Merkle
