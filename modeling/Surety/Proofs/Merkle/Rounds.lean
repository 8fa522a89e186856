import Surety.Proofs.Merkle.Bounds
import Surety.Proofs.Merkle.Heights

/-!
# Building and climbing in rounds

The array of a tree is built by one loop and read by another.  Each of them carries along where a level
begins and how wide it is, works the next values out for itself, and goes on as long as there is a level
above.  Here both loops are taken one round at a time, with every read checked.

* `Loop.Passes.ends_iff` says when a loop ends, from the states that it passes through.
* `building_passes` and `climbing_passes` give these states: after as many rounds as a height, the loop
  stands at the level of that height, behind all nodes of the levels below.
* `building_ends_iff` and `climbing_ends_iff` say with what the loops end.
* `tree_stores_levels` is the result: what the array holds, what is read off it, and that both loops end.

Neither loop is assumed to end.  That a round could be left without a next state, by a read outside the
array, is part of `Loop` and is ruled out for every number of items.
-/

namespace Surety.Merkle

/-! ## Loops -/

/-- A loop: whether another round follows a state, and the state after that round.  A round that reads
outside the array has none. -/
structure Loop (State : Type) where
  goesOn : State → Bool
  round : State → Option State

namespace Loop

/-- The state in which a loop is after a number of rounds. -/
inductive After {State : Type} (loop : Loop State) (first : State) : (rounds : Nat) → State → Prop
  | start : After loop first 0 first
  | round {rounds : Nat} {state next : State} (hbefore : After loop first rounds state)
      (hgoesOn : loop.goesOn state = true) (hnext : loop.round state = some next) :
      After loop first (rounds + 1) next

section

variable {State : Type} {loop : Loop State} {states : Nat → State} {rounds total : Nat} {state : State}

/-- A loop ends after a number of rounds, in a state that no round follows. -/
def Ends (loop : Loop State) (first : State) (rounds : Nat) (last : State) : Prop :=
  loop.After first rounds last ∧ loop.goesOn last = false

/-- The states that a loop passes through before it ends. -/
structure Passes (loop : Loop State) (states : Nat → State) (total : Nat) : Prop where
  goesOn : ∀ rounds < total, loop.goesOn (states rounds) = true
  round : ∀ rounds < total, loop.round (states rounds) = some (states (rounds + 1))
  ends : loop.goesOn (states total) = false

theorem Passes.after_iff (h : loop.Passes states total) :
    loop.After (states 0) rounds state ↔ rounds ≤ total ∧ state = states rounds := by
  constructor
  · intro hafter
    induction hafter with
    | start => exact ⟨Nat.zero_le _, rfl⟩
    | @round rounds state next hbefore hgoesOn hnext ih =>
        obtain ⟨hle, rfl⟩ := ih
        -- no round follows the last of the states
        have hlt : rounds < total := by
          refine Nat.lt_of_le_of_ne hle ?_
          rintro rfl
          rw [h.ends] at hgoesOn
          cases hgoesOn
        exact ⟨hlt, Option.some.inj (hnext.symm.trans (h.round rounds hlt))⟩
  · rintro ⟨hle, rfl⟩
    induction rounds with
    | zero => exact .start
    | succ rounds ih => exact .round (ih (by omega)) (h.goesOn rounds hle) (h.round rounds hle)

theorem Passes.ends_iff (h : loop.Passes states total) :
    loop.Ends (states 0) rounds state ↔ rounds = total ∧ state = states total := by
  rw [Ends, h.after_iff]
  constructor
  · rintro ⟨⟨hle, rfl⟩, hlast⟩
    obtain rfl : rounds = total := by
      by_contra hne
      rw [h.goesOn rounds (by omega)] at hlast
      cases hlast
    exact ⟨rfl, rfl⟩
  · rintro ⟨rfl, rfl⟩
    exact ⟨⟨Nat.le_refl _, rfl⟩, h.ends⟩

end

end Loop

/-! ## The two loops -/

/-- A state of the loop that builds: the nodes so far, and where the topmost level begins and how wide it
is. -/
structure Building where
  nodes : Array Digest
  start : Nat
  width : Nat

/-- The loop that appends level after level. -/
def building (sorted : Bool) : Loop Building where
  goesOn state := decide (0 < widthAbove state.width)
  round state := do
    let nodes ← checkedParents sorted state.nodes state.start state.width 0
    some ⟨nodes, state.start + state.width, widthAbove state.width⟩

/-- A state of the loop that climbs: the steps so far, where the current level begins and how wide it is,
and the position of the node in it. -/
structure Climbing where
  path : Path
  start : Nat
  width : Nat
  index : Nat

/-- The loop that steps from node to parent. -/
def climbing (nodes : Array Digest) : Loop Climbing where
  goesOn state := decide (0 < widthAbove state.width)
  round state :=
    if state.start + state.width ≤ nodes.size then do
      let entry ← checkedEntry (nodes.extract state.start (state.start + state.width)) state.index
      some ⟨state.path ++ [entry], state.start + state.width, widthAbove state.width,
        state.index / 2⟩
    else none

theorem goesOn_ceilDiv_iff {width height : Nat} :
    decide (0 < widthAbove (width ⌈/⌉ 2 ^ height)) = true ↔ height < Nat.clog 2 width := by
  rw [decide_eq_true_iff, ← one_lt_ceilDiv_iff]
  constructor
  · intro habove
    by_contra hone
    rw [widthAbove_of_le_one (by omega)] at habove
    omega
  · intro hwide
    rw [widthAbove_of_one_lt hwide]
    omega

theorem goesOn_ceilDiv_clog (width : Nat) :
    decide (0 < widthAbove (width ⌈/⌉ 2 ^ Nat.clog 2 width)) = false := by
  rw [← Bool.not_eq_true, goesOn_ceilDiv_iff]
  exact Nat.lt_irrefl _

theorem widthAbove_ceilDiv {width height : Nat} (hheight : height < Nat.clog 2 width) :
    widthAbove (width ⌈/⌉ 2 ^ height) = width ⌈/⌉ 2 ^ (height + 1) := by
  rw [widthAbove_of_one_lt (one_lt_ceilDiv_iff.2 hheight), ceilDiv_two_pow_succ]

section

variable {items : List Bytes} {sorted : Bool} {height index : Nat}

/-! ## Rounds of building -/

/-- The nodes of the levels below a height. -/
def lowerNodes (sorted : Bool) (items : List Bytes) (height : Nat) : List Digest :=
  ((List.range height).map (levelAt sorted items)).flatten

theorem lowerNodes_succ (sorted : Bool) (items : List Bytes) (height : Nat) :
    lowerNodes sorted items (height + 1)
      = lowerNodes sorted items height ++ levelAt sorted items height := by
  rw [lowerNodes, List.range_succ, List.map_append, List.flatten_append, List.map_singleton,
    List.flatten_singleton, lowerNodes]

theorem lowerNodes_length (sorted : Bool) (items : List Bytes) (height : Nat) :
    (lowerNodes sorted items height).length = nodesBelow items.length height := by
  induction height with
  | zero => rfl
  | succ height ih =>
      rw [lowerNodes_succ, List.length_append, ih, levelAt_length, nodesBelow_succ]

/-- The state of the loop that builds when the level of a height is the topmost one. -/
def buildingAt (sorted : Bool) (items : List Bytes) (height : Nat) : Building where
  nodes := (lowerNodes sorted items (height + 1)).toArray
  start := nodesBelow items.length height
  width := items.length ⌈/⌉ 2 ^ height

/-- A round appends the parents of the topmost level. -/
theorem building_round (hheight : height < Nat.clog 2 items.length) :
    (building sorted).round (buildingAt sorted items height)
      = some (buildingAt sorted items (height + 1)) := by
  have hsize : nodesBelow items.length height + items.length ⌈/⌉ 2 ^ height
      = (lowerNodes sorted items (height + 1)).toArray.size := by
    rw [List.size_toArray, lowerNodes_length, nodesBelow_succ]
  have hparents : checkedParents sorted (lowerNodes sorted items (height + 1)).toArray
      (nodesBelow items.length height) (items.length ⌈/⌉ 2 ^ height) 0
        = some (lowerNodes sorted items (height + 2)).toArray := by
    rw [checkedParents_eq _ _ _ _ _ (Nat.le_of_eq hsize), Option.some.injEq]
    apply Array.ext'
    -- the nodes from the beginning of the topmost level on are that level
    have hlevel : (lowerNodes sorted items (height + 1)).drop (nodesBelow items.length height)
        = levelAt sorted items height := by
      rw [lowerNodes_succ, List.drop_left' (lowerNodes_length sorted items height)]
    rw [pushParents_toList, hsize, List.size_toArray, Nat.add_zero (nodesBelow items.length height),
      List.take_length, hlevel, lowerNodes_succ sorted items (height + 1)]
    rfl
  simp only [building, buildingAt]
  rw [hparents, widthAbove_ceilDiv hheight, nodesBelow_succ]
  rfl

theorem building_passes (sorted : Bool) (items : List Bytes) :
    (building sorted).Passes (buildingAt sorted items) (Nat.clog 2 items.length) where
  goesOn _ hheight := goesOn_ceilDiv_iff.2 hheight
  round _ hheight := building_round hheight
  ends := goesOn_ceilDiv_clog _

/-- Building ends after a round for each level above the leaves. -/
theorem building_ends_iff {rounds : Nat} {last : Building} :
    (building sorted).Ends ⟨(items.map leafHash).toArray, 0, items.length⟩ rounds last ↔
      rounds = Nat.clog 2 items.length ∧
        last = ⟨(Tree.ofItems items sorted).nodes, nodesBelow items.length (Nat.clog 2 items.length),
          (levelAt sorted items (Nat.clog 2 items.length)).length⟩ := by
  have hstart : (⟨(items.map leafHash).toArray, 0, items.length⟩ : Building)
      = buildingAt sorted items 0 := by
    simp [buildingAt, lowerNodes, levelAt, nodesBelow, Nat.ceilDiv_eq_add_pred_div]
  have hnodes : (lowerNodes sorted items (Nat.clog 2 items.length + 1)).toArray
      = (Tree.ofItems items sorted).nodes := by
    rw [lowerNodes, ← levels_eq_map_levelAt, ← Tree.ofItems_nodes]
  rw [hstart, (building_passes sorted items).ends_iff, buildingAt, hnodes, levelAt_length]

/-! ## Rounds of climbing -/

/-- The level of a height stands in the array where the levels below it end, and is read there. -/
theorem checkedEntry_levelAt (hheight : height ≤ Nat.clog 2 items.length)
    (hindex : index < (levelAt sorted items height).length) :
    let nodes := (Tree.ofItems items sorted).nodes
    let start := nodesBelow items.length height
    let width := items.length ⌈/⌉ 2 ^ height
    start + width ≤ nodes.size ∧
      checkedEntry (nodes.extract start (start + width)) index
        = some (entryAt (levelAt sorted items height) index hindex) := by
  intro nodes start width
  have hdrop : nodes.toList.drop start = (levels sorted (levelAt sorted items height)).flatten :=
    Tree.ofItems_drop_nodesBelow hheight
  have hwidth : (levelAt sorted items height).length = width := levelAt_length sorted items height
  have hsize : start + (levelAt sorted items height).length ≤ nodes.size := by
    obtain ⟨above, habove⟩ := levels_flatten sorted (levelAt sorted items height)
    have hlength := congrArg List.length hdrop
    rw [habove, List.length_drop, List.length_append, Array.length_toList] at hlength
    omega
  rw [← hwidth]
  refine ⟨hsize, ?_⟩
  rw [checkedEntry_eq hindex hsize, Option.some.injEq]
  exact storedEntry_eq_entryAt hindex hsize fun k hk => getElem_of_drop_eq hdrop hk (by omega)

/-- The state of the loop that climbs when it has come to a height. -/
def climbingAt (path : Path) (width index height : Nat) : Climbing where
  path := path.take height
  start := nodesBelow width height
  width := width ⌈/⌉ 2 ^ height
  index := index / 2 ^ height

/-- A round adds the step from the level of its height. -/
theorem climbing_round (hindex : index < (items.map leafHash).length)
    (hheight : height < Nat.clog 2 items.length) :
    let path := climb sorted (items.map leafHash) index hindex
    (climbing (Tree.ofItems items sorted).nodes).round (climbingAt path items.length index height)
      = some (climbingAt path items.length index (height + 1)) := by
  intro path
  obtain ⟨hbelow, hentry⟩ := @climb_getElem?_levelAt items sorted index height hindex hheight
  obtain ⟨hsize, hread⟩ := @checkedEntry_levelAt items sorted height _ (Nat.le_of_lt hheight) hbelow
  have hpath : path.take height ++ [entryAt (levelAt sorted items height) (index / 2 ^ height) hbelow]
      = path.take (height + 1) := by
    rw [List.take_add_one, hentry, Option.toList_some]
  have hindexAbove : index / 2 ^ height / 2 = index / 2 ^ (height + 1) := by
    rw [Nat.div_div_eq_div_mul, Nat.pow_succ]
  simp only [climbing, climbingAt]
  rw [if_pos hsize, hread, widthAbove_ceilDiv hheight, hindexAbove, nodesBelow_succ, ← hpath]
  rfl

theorem climbing_passes (sorted : Bool) (hindex : index < (items.map leafHash).length) :
    (climbing (Tree.ofItems items sorted).nodes).Passes
      (climbingAt (climb sorted (items.map leafHash) index hindex) items.length index)
      (Nat.clog 2 items.length) where
  goesOn _ hheight := goesOn_ceilDiv_iff.2 hheight
  round _ hheight := climbing_round hindex hheight
  ends := goesOn_ceilDiv_clog _

/-- Climbing ends after a round for each level above the leaves, at the root. -/
theorem climbing_ends_iff (hindex : index < (items.map leafHash).length) {rounds : Nat}
    {last : Climbing} :
    (climbing (Tree.ofItems items sorted).nodes).Ends ⟨[], 0, items.length, index⟩ rounds last ↔
      rounds = Nat.clog 2 items.length ∧
        last = ⟨climb sorted (items.map leafHash) index hindex,
          nodesBelow items.length (Nat.clog 2 items.length), 1, 0⟩ := by
  have hlt : index < items.length := by simpa using hindex
  have hpower : items.length ≤ 2 ^ Nat.clog 2 items.length := Nat.le_pow_clog (by decide) _
  have hstart : (⟨[], 0, items.length, index⟩ : Climbing)
      = climbingAt (climb sorted (items.map leafHash) index hindex) items.length index 0 := by
    simp [climbingAt, nodesBelow, Nat.ceilDiv_eq_add_pred_div]
  rw [hstart, (climbing_passes sorted hindex).ends_iff, climbingAt,
    List.take_of_length_le (Nat.le_of_eq (climb_length_leaves hindex)),
    ceilDiv_two_pow_clog (by omega), Nat.div_eq_of_lt (by omega)]

/-! ## What the array holds -/

/-- A step up from the node at a position of a level.  Its sibling is the neighbour of the node, which
stands before a node at an odd position and behind one at an even position; a last node without neighbour
is its own sibling. -/
structure StepFrom (level : List Digest) (position : Nat) (entry : PathEntry) : Prop where
  target : level[position]? = some entry.target
  side : entry.side = .left ↔ position % 2 = 1
  before : position % 2 = 1 → level[position - 1]? = some entry.sibling
  behind : position % 2 = 0 → position + 1 < level.length → level[position + 1]? = some entry.sibling
  alone : position % 2 = 0 → position + 1 = level.length → entry.sibling = entry.target

theorem stepFrom_entryAt {level : List Digest} (hindex : index < level.length) :
    StepFrom level index (entryAt level index hindex) := by
  have htarget : level[index]? = some level[index] := List.getElem?_eq_getElem hindex
  by_cases heven : index % 2 = 0
  · have hodd : ¬ index % 2 = 1 := by omega
    rw [entryAt, if_pos heven]
    refine ⟨htarget, by simp [hodd], fun h => absurd h hodd, fun _ hnext => ?_, fun _ hlast => ?_⟩
    · rw [List.getElem?_eq_getElem hnext, Option.getD_some]
    · rw [List.getElem?_eq_none (by omega), Option.getD_none]
  · have hodd : index % 2 = 1 := by omega
    rw [entryAt, if_neg heven]
    exact ⟨htarget, by simp [hodd], fun _ => List.getElem?_eq_getElem (by omega),
      fun h => absurd h heven, fun h => absurd h heven⟩

/-- The root is alone on the last level. -/
theorem levelAt_clog (hitems : items ≠ []) (sorted : Bool) :
    ∃ root, levelAt sorted items (Nat.clog 2 items.length) = [root] ∧
      (Tree.ofItems items sorted).root? = some root := by
  obtain ⟨_, -, -, hroot⟩ := @Tree.path?_leads_to_root items sorted 0 (List.length_pos_iff.2 hitems)
  have hlast := levels_getElem?_last ((Tree.ofItems_root? items sorted).symm.trans hroot)
  rw [levels_length (by simpa using hitems), List.length_map, Nat.add_sub_cancel,
    levels_getElem?_levelAt (Nat.le_refl _), Option.some.injEq] at hlast
  exact ⟨_, hlast, hroot⟩

theorem Tree.ofItems_leaf?_eq_some_iff {leaf : Digest} :
    (Tree.ofItems items sorted).leaf? index = some leaf ↔
      ∃ hindex : index < items.length, leaf = leafHash items[index] := by
  have hcount : (Tree.ofItems items sorted).leafCount = items.length := rfl
  rw [Tree.leaf?, hcount]
  by_cases hindex : index < items.length
  · obtain ⟨above, habove⟩ := levels_flatten sorted (items.map leafHash)
    have hleaf : index < (items.map leafHash).length := by simpa using hindex
    have hread : (Tree.ofItems items sorted).nodes[index]? = some (leafHash items[index]) := by
      rw [← Array.getElem?_toList, Tree.ofItems_nodes, habove, List.getElem?_append_left hleaf,
        List.getElem?_eq_getElem hleaf, List.getElem_map]
    rw [if_pos hindex, hread, Option.some.injEq, eq_comm]
    exact ⟨fun h => ⟨hindex, h⟩, fun ⟨_, h⟩ => h⟩
  · rw [if_neg hindex]
    exact ⟨fun h => (nomatch h), fun ⟨h, _⟩ => absurd h hindex⟩

end

/-- The array of a tree holds the levels of the tree one after another, from the leaves to the level with
a single node, which is the root; each level has half as many nodes as the one below, rounded up.  What is
read off the array are the leaves and, for each of them, one step for each level above the leaves.  The
loops that build the array and climb in it end for every number of items, after one round for each of
these levels. -/
theorem tree_stores_levels (items : List Bytes) (sorted : Bool) :
    let tree := Tree.ofItems items sorted
    let height := Nat.clog 2 items.length
    levels sorted (items.map leafHash) = (List.range (height + 1)).map (levelAt sorted items) ∧
    tree.nodes.toList = (levels sorted (items.map leafHash)).flatten ∧
    (∀ k, (levelAt sorted items k).length = items.length ⌈/⌉ 2 ^ k) ∧
    (items ≠ [] → ∃ root, levelAt sorted items height = [root] ∧ tree.root? = some root) ∧
    (∀ index leaf, tree.leaf? index = some leaf ↔
      ∃ hindex : index < items.length, leaf = leafHash items[index]) ∧
    (∀ index, items.length ≤ index → tree.path? index = none) ∧
    (∀ index < items.length, ∃ path, tree.path? index = some path ∧ path.length = height ∧
      (∀ k < height, ∃ entry, path[k]? = some entry ∧
        StepFrom (levelAt sorted items k) (index / 2 ^ k) entry) ∧
      ∀ rounds last, (climbing tree.nodes).Ends ⟨[], 0, items.length, index⟩ rounds last ↔
        rounds = height ∧ last = ⟨path, nodesBelow items.length height, 1, 0⟩) ∧
    ∀ rounds last,
      (building sorted).Ends ⟨(items.map leafHash).toArray, 0, items.length⟩ rounds last ↔
        rounds = height ∧ last = ⟨tree.nodes, nodesBelow items.length height,
          (levelAt sorted items height).length⟩ := by
  intro tree height
  refine ⟨levels_eq_map_levelAt sorted items, Tree.ofItems_nodes items sorted,
    levelAt_length sorted items, fun hitems => levelAt_clog hitems sorted,
    fun _ _ => Tree.ofItems_leaf?_eq_some_iff, fun _ hindex => Tree.path?_eq_none_iff.2 hindex,
    fun index hindex => ?_, fun _ _ => building_ends_iff⟩
  have hleaf : index < (items.map leafHash).length := by simpa using hindex
  refine ⟨_, Tree.ofItems_path? hindex, climb_length_leaves hleaf, fun k hk => ?_,
    fun _ _ => climbing_ends_iff hleaf⟩
  obtain ⟨hbelow, hentry⟩ := @climb_getElem?_levelAt items sorted index k hleaf hk
  exact ⟨_, hentry, stepFrom_entryAt hbelow⟩

/-- The third of three leaves is its own sibling, and its parent has a sibling on the left. -/
theorem third_of_three_leaves_stored :
    let items : List Bytes := [[1], [2], [3]]
    let tree := Tree.ofItems items true
    (∃ root, levelAt true items 2 = [root] ∧ tree.root? = some root) ∧
    ∃ path leaf above, tree.path? 2 = some path ∧ path.length = 2 ∧
      path[0]? = some leaf ∧ leaf.sibling = leaf.target ∧ leaf.side = .right ∧
      path[1]? = some above ∧ above.side = .left ∧
      (climbing tree.nodes).Ends ⟨[], 0, 3, 2⟩ 2 ⟨path, 5, 1, 0⟩ := by
  intro items tree
  have hheight : Nat.clog 2 items.length = 2 := by decide
  obtain ⟨-, -, -, hroot, -, -, hpaths, -⟩ := tree_stores_levels items true
  obtain ⟨path, hpath, hlength, hsteps, hends⟩ := hpaths 2 (by decide)
  rw [hheight] at hroot hlength hsteps hends
  have hnodes : nodesBelow items.length 2 = 5 := by decide
  rw [hnodes] at hends
  obtain ⟨leaf, hleaf, hfirst⟩ := hsteps 0 (by decide)
  obtain ⟨above, habove, hsecond⟩ := hsteps 1 (by decide)
  refine ⟨hroot (by decide), path, leaf, above, hpath, hlength, hleaf,
    hfirst.alone (by decide) rfl, ?_, habove, hsecond.side.2 (by decide), (hends _ _).2 ⟨rfl, rfl⟩⟩
  cases hside : leaf.side with
  | left => exact absurd (hfirst.side.1 hside) (by decide)
  | right => rfl

end Surety.Merkle
