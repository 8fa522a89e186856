import Mathlib.Data.List.Nodup
import Surety.Hash.Sha256

/-!
# Collisions of given strings

A collision is a pair of different strings with one hash inside a given list of strings.  No hash is
assumed free of them: a statement that would fail because of one names the strings that it hashes and
ends in `∨ Collision` over exactly these.
-/

namespace Surety.Sha256

/-- Two different strings of a list have the same hash. -/
def Collision (strings : List Bytes) : Prop :=
  ∃ x ∈ strings, ∃ y ∈ strings, x ≠ y ∧ hash x = hash y

/-- Strings with the same hash are the same, or they are a collision. -/
theorem eq_or_collision {strings : List Bytes} {x y : Bytes} (hx : x ∈ strings)
    (hy : y ∈ strings) (h : hash x = hash y) : x = y ∨ Collision strings := by
  by_cases heq : x = y
  · exact .inl heq
  · exact .inr ⟨x, hx, y, hy, heq, h⟩

/-- Two lists of strings with the same hashes are the same, or there is a collision among them. -/
theorem lists_eq_or_collision {strings first second : List Bytes} (hfirst : first ⊆ strings)
    (hsecond : second ⊆ strings) (h : first.map hash = second.map hash) :
    first = second ∨ Collision strings := by
  induction first generalizing second with
  | nil => exact .inl (List.map_eq_nil_iff.1 h.symm).symm
  | cons x xs ih =>
      obtain ⟨y, ys, rfl, hhash, hrest⟩ := List.map_eq_cons_iff.1 h.symm
      obtain ⟨hx, hxs⟩ := List.cons_subset.1 hfirst
      obtain ⟨hy, hys⟩ := List.cons_subset.1 hsecond
      rcases eq_or_collision hx hy hhash.symm with rfl | hcollision
      · exact (ih hxs hys hrest.symm).imp_left fun hsame => congrArg (x :: ·) hsame
      · exact .inr hcollision

/-- Strings from a table of strings with different hashes are no collision. -/
theorem not_collision_of_nodup {strings table : List Bytes} (hsub : strings ⊆ table)
    (h : (table.map hash).Nodup) : ¬Collision strings := by
  rintro ⟨x, hx, y, hy, hne, hhash⟩
  exact hne (List.inj_on_of_nodup_map h (hsub hx) (hsub hy) hhash)

end Surety.Sha256
