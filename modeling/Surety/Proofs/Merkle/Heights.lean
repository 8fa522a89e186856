import Mathlib.Algebra.BigOperators.Group.List.Basic
import Mathlib.Algebra.Order.Floor.Div
import Mathlib.GroupTheory.GroupAction.Ring
import Surety.Proofs.Merkle.SecondPreimage

/-!
# Levels by their height

`levels` lists the levels of a tree until one node is left, `levelAt` names them by the number of times
that the leaves were paired up.  Here the list is read at each height, and with it the array of a tree and
the way up from a leaf.

* `levelAt_length` is the width of a level, and `one_lt_ceilDiv_iff` says up to which height a level is
  wider than one node.
* `levels_eq_map_levelAt` says which heights the list of levels has.
* `Tree.ofItems_drop_nodesBelow` says where the levels from a height on stand in the array.
* `climb_getElem?` is the step of a way up at a height.
-/

namespace Surety.Merkle

/-! ## Widths -/

/-- Halving a width again and again, rounding up each time, divides it by a power of two. -/
theorem ceilDiv_two_pow_succ (width height : Nat) :
    width ⌈/⌉ 2 ^ (height + 1) = (width ⌈/⌉ 2 ^ height + 1) / 2 := by
  have hhalf : (width ⌈/⌉ 2 ^ height + 1) / 2 = width ⌈/⌉ 2 ^ height ⌈/⌉ 2 := rfl
  rw [hhalf]
  refine eq_of_forall_ge_iff fun bound => ?_
  rw [ceilDiv_le_iff_le_mul (Nat.two_pow_pos _), ceilDiv_le_iff_le_mul Nat.two_pos,
    ceilDiv_le_iff_le_mul (Nat.two_pow_pos _), Nat.pow_succ, Nat.mul_assoc]

theorem one_lt_ceilDiv_iff {width height : Nat} :
    1 < width ⌈/⌉ 2 ^ height ↔ height < Nat.clog 2 width := by
  rw [← not_le, ← not_le, ceilDiv_le_iff_le_mul (Nat.two_pow_pos _), Nat.mul_one,
    Nat.clog_le_iff_le_pow (by decide)]

theorem ceilDiv_two_pow_clog {width : Nat} (hwidth : 0 < width) :
    width ⌈/⌉ 2 ^ Nat.clog 2 width = 1 := by
  have hle : ¬ 1 < width ⌈/⌉ 2 ^ Nat.clog 2 width := by
    rw [one_lt_ceilDiv_iff]
    exact Nat.lt_irrefl _
  have hpos : ¬ width ⌈/⌉ 2 ^ Nat.clog 2 width ≤ 0 := by
    rw [ceilDiv_le_iff_le_mul (Nat.two_pow_pos _)]
    omega
  omega

/-- A level has as many nodes as there are leaves, divided by the leaves below a node and rounded up. -/
theorem levelAt_length (sorted : Bool) (items : List Bytes) (height : Nat) :
    (levelAt sorted items height).length = items.length ⌈/⌉ 2 ^ height := by
  induction height with
  | zero =>
      rw [levelAt, List.length_map, Nat.pow_zero, Nat.ceilDiv_eq_add_pred_div, Nat.div_one,
        Nat.add_sub_cancel]
  | succ height ih => rw [levelAt, pairUp_length, ih, ceilDiv_two_pow_succ]

/-- The number of nodes that stand below a height in the array of a tree over `width` items. -/
def nodesBelow (width height : Nat) : Nat :=
  ((List.range height).map fun below => width ⌈/⌉ 2 ^ below).sum

theorem nodesBelow_succ (width height : Nat) :
    nodesBelow width (height + 1) = nodesBelow width height + width ⌈/⌉ 2 ^ height := by
  rw [nodesBelow, List.range_succ, List.map_append, List.sum_append, List.map_singleton,
    List.sum_singleton, nodesBelow]

/-! ## Heights -/

section

variable {items : List Bytes} {sorted : Bool} {level lower : List Digest} {height : Nat}

theorem levels_getElem?_levelAt (hheight : height ≤ Nat.clog 2 items.length) :
    (levels sorted (items.map leafHash))[height]? = some (levelAt sorted items height) := by
  induction height with
  | zero => exact levels_zero sorted _
  | succ height ih =>
      have hitems : items.map leafHash ≠ [] := by
        intro hnil
        rw [List.map_eq_nil_iff.1 hnil] at hheight
        simp at hheight
      obtain ⟨upper, hupper⟩ : ∃ upper,
          (levels sorted (items.map leafHash))[height + 1]? = some upper := by
        refine ⟨_, List.getElem?_eq_getElem ?_⟩
        rw [levels_length hitems, List.length_map]
        omega
      obtain ⟨lower, hlower, -, rfl⟩ := levels_succ hupper
      obtain rfl := Option.some.inj ((ih (by omega)).symm.trans hlower)
      exact hupper

/-- The list of levels has those of all heights up to the first level with a single node. -/
theorem levels_eq_map_levelAt (sorted : Bool) (items : List Bytes) :
    levels sorted (items.map leafHash)
      = (List.range (Nat.clog 2 items.length + 1)).map (levelAt sorted items) := by
  have hlength : (levels sorted (items.map leafHash)).length = Nat.clog 2 items.length + 1 := by
    by_cases hitems : items = []
    · rw [hitems, List.map_nil, levels_of_length_le_one (by simp)]
      simp
    · rw [levels_length (by simpa using hitems), List.length_map]
  refine List.ext_getElem? fun height => ?_
  by_cases hheight : height ≤ Nat.clog 2 items.length
  · rw [levels_getElem?_levelAt hheight, List.getElem?_map,
      List.getElem?_range (by omega), Option.map_some]
  · rw [List.getElem?_eq_none (by omega), List.getElem?_eq_none (by simp; omega)]

/-- From any of its levels on, the list of levels is that of the levels above and including it. -/
theorem levels_drop (hlower : (levels sorted level)[height]? = some lower) :
    (levels sorted level).drop height = levels sorted lower := by
  induction height generalizing level with
  | zero =>
      rw [levels_zero, Option.some.injEq] at hlower
      rw [hlower, List.drop_zero]
  | succ height ih =>
      have hwide : 1 < level.length := by
        by_contra hone
        simp [levels_of_length_le_one (show level.length ≤ 1 by omega)] at hlower
      rw [levels_of_one_lt_length hwide] at hlower ⊢
      exact ih hlower

/-- Behind the nodes of the lower levels stand the levels from a height on. -/
theorem Tree.ofItems_drop_nodesBelow (hheight : height ≤ Nat.clog 2 items.length) :
    (Tree.ofItems items sorted).nodes.toList.drop (nodesBelow items.length height)
      = (levels sorted (levelAt sorted items height)).flatten := by
  have hcount : nodesBelow items.length height
      = (((levels sorted (items.map leafHash)).map List.length).take height).sum := by
    rw [nodesBelow, levels_eq_map_levelAt, List.map_map, ← List.map_take, List.take_range,
      Nat.min_eq_left (by omega)]
    congr 1
    exact List.map_congr_left fun below _ => (levelAt_length sorted items below).symm
  rw [Tree.ofItems_nodes, hcount, List.drop_sum_flatten,
    levels_drop (levels_getElem?_levelAt hheight)]

end

/-! ## The way up at a height -/

theorem climb_length {sorted : Bool} {level : List Digest} {index : Nat}
    (hindex : index < level.length) :
    (climb sorted level index hindex).length + 1 = (levels sorted level).length := by
  by_cases hone : level.length ≤ 1
  · rw [climb_of_length_le_one hindex hone, levels_of_length_le_one hone]
    rfl
  · rw [climb_of_one_lt_length hindex (by omega), levels_of_one_lt_length (by omega),
      List.length_cons, List.length_cons]
    exact congrArg (· + 1) (climb_length _)
termination_by level.length
decreasing_by
  rw [pairUp_length]
  omega

/-- At a height the way up steps from the node at the index without its lowest bits. -/
theorem climb_getElem? {sorted : Bool} {level lower : List Digest} {index height : Nat}
    (hindex : index < level.length)
    (hlower : (levels sorted level)[height]? = some lower) (hwide : 1 < lower.length) :
    ∃ hbelow : index / 2 ^ height < lower.length,
      (climb sorted level index hindex)[height]? = some (entryAt lower (index / 2 ^ height) hbelow) := by
  induction height generalizing level index with
  | zero =>
      obtain rfl : level = lower := by simpa [levels_zero] using hlower
      simp only [Nat.pow_zero, Nat.div_one]
      refine ⟨hindex, ?_⟩
      rw [climb_of_one_lt_length hindex hwide, List.getElem?_cons_zero]
  | succ height ih =>
      have hmany : 1 < level.length := by
        by_contra hone
        simp [levels_of_length_le_one (show level.length ≤ 1 by omega)] at hlower
      rw [levels_of_one_lt_length hmany, List.getElem?_cons_succ] at hlower
      rw [climb_of_one_lt_length hindex hmany, List.getElem?_cons_succ]
      simp only [Nat.pow_succ', ← Nat.div_div_eq_div_mul]
      exact ih _ hlower

section

variable {items : List Bytes} {sorted : Bool} {index height : Nat}
  (hindex : index < (items.map leafHash).length)
include hindex

/-- There is one step up from a leaf for each level above the leaves. -/
theorem climb_length_leaves :
    (climb sorted (items.map leafHash) index hindex).length = Nat.clog 2 items.length := by
  have hcount := @climb_length sorted _ _ hindex
  rw [levels_length (List.length_pos_iff.1 (by omega)), List.length_map] at hcount
  omega

theorem climb_getElem?_levelAt (hheight : height < Nat.clog 2 items.length) :
    ∃ hbelow : index / 2 ^ height < (levelAt sorted items height).length,
      (climb sorted (items.map leafHash) index hindex)[height]?
        = some (entryAt (levelAt sorted items height) (index / 2 ^ height) hbelow) := by
  have hwide : 1 < (levelAt sorted items height).length := by
    rw [levelAt_length]
    exact one_lt_ceilDiv_iff.2 hheight
  exact climb_getElem? hindex (levels_getElem?_levelAt (Nat.le_of_lt hheight)) hwide

end

end Surety.Merkle
