import Surety.Merkle.Tree

/-!
# Trees level by level

The plain description of a claim tree: the lowest level holds the leaves, every further level the
parents of neighbours, and a last node without neighbour is paired with itself.  It knows no array
and no positions, and serves to state what the array of a tree contains.
-/

namespace Surety.Merkle

/-- The parents of a level. -/
def pairUp (sorted : Bool) : List Digest → List Digest
  | [] => []
  | [last] => [parent sorted last last]
  | left :: right :: rest => parent sorted left right :: pairUp sorted rest

theorem pairUp_length (sorted : Bool) (level : List Digest) :
    (pairUp sorted level).length = (level.length + 1) / 2 := by
  fun_induction pairUp sorted level with
  | case1 => rfl
  | case2 => simp
  | case3 left right rest ih => simp [ih]; omega

/-- All levels from the given one up to the one with a single node. -/
def levels (sorted : Bool) (level : List Digest) : List (List Digest) :=
  if level.length ≤ 1 then [level] else level :: levels sorted (pairUp sorted level)
termination_by level.length
decreasing_by
  rw [pairUp_length]
  omega

/-- The level that stands `height` levels above the leaves of the items. -/
def levelAt (sorted : Bool) (items : List Bytes) : (height : Nat) → List Digest
  | 0 => items.map leafHash
  | height + 1 => pairUp sorted (levelAt sorted items height)

end Surety.Merkle
