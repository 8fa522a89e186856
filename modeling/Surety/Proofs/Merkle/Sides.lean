import Mathlib.Data.List.Forall2
import Mathlib.Data.Nat.Bitwise
import Surety.Proofs.Merkle.Completeness

/-!
# Ways up with and without sides

A way up can be followed by the sides that it recorded, or be stripped to its siblings and checked as a
proof.  Both give the same answer for every way up that can be recorded, whatever tree it comes from and
however long it is.

* A step is recorded with two places for its sibling, of which one is filled;
  `Path.ofRecorded?_isSome_iff` says that nothing else can be recorded.  `RecordedStep.sibling` and
  `RecordedStep.climb` read the two places; `siblings_of_recorded` and `foldl_of_recorded` say that a path
  holds what they read.
* `Path.follows_of_sidesTold` says when the bits of an index tell the sides of a way up;
  `exists_sidesTold_iff` says for which ways up there is such an index.
* `verify_of_recorded` is the result: in a sorted tree the sides do not matter, in an unsorted one they
  have to be told by the index.
-/

namespace Surety.Merkle

/-! ## Recorded steps -/

/-- A step as it is recorded: the node, with one place for a sibling on either side of it. -/
structure RecordedStep where
  target : Digest
  left : Option Digest
  right : Option Digest
  deriving DecidableEq

namespace RecordedStep

/-- The sibling of a step, the left one first.  Where none is recorded the node stands in. -/
def sibling (step : RecordedStep) : Digest := (step.left.or step.right).getD step.target

/-- The parent of the hash so far and what is recorded beside it.  Where nothing is recorded the hash is
paired with itself. -/
def climb (sorted : Bool) (accumulated : Digest) (step : RecordedStep) : Digest :=
  match step.left with
  | some left => parent sorted left accumulated
  | none => parent sorted accumulated (step.right.getD accumulated)

/-- The step of a path, when exactly one place is filled. -/
def entry? (step : RecordedStep) : Option PathEntry :=
  PathEntry.ofSiblings? step.target step.left step.right

end RecordedStep

/-- The path of recorded steps; there is none when a step has both siblings or neither. -/
def Path.ofRecorded? (steps : List RecordedStep) : Option Path := steps.mapM RecordedStep.entry?

section

variable {step : RecordedStep} {entry : PathEntry} {steps : List RecordedStep} {path : Path}

theorem RecordedStep.entry?_eq_some_iff :
    step.entry? = some entry ↔
      step.target = entry.target ∧
        (step.left = some entry.sibling ∧ step.right = none ∧ entry.side = .left ∨
          step.left = none ∧ step.right = some entry.sibling ∧ entry.side = .right) := by
  obtain ⟨target, left, right⟩ := step
  obtain ⟨target', side, sibling⟩ := entry
  unfold entry?
  cases left <;> cases right <;> cases side <;> simp [PathEntry.ofSiblings?]

theorem RecordedStep.entry?_isSome_iff :
    step.entry?.isSome = true ↔ step.left.isSome ≠ step.right.isSome := by
  obtain ⟨target, left, right⟩ := step
  unfold entry?
  cases left <;> cases right <;> simp [PathEntry.ofSiblings?]

theorem RecordedStep.sibling_of_entry? (h : step.entry? = some entry) :
    entry.sibling = step.sibling := by
  obtain ⟨-, ⟨hleft, -, -⟩ | ⟨hleft, hright, -⟩⟩ := entry?_eq_some_iff.1 h
  · rw [RecordedStep.sibling, hleft, Option.some_or, Option.getD_some]
  · rw [RecordedStep.sibling, hleft, hright, Option.none_or, Option.getD_some]

theorem RecordedStep.climb_of_entry? (h : step.entry? = some entry) (sorted : Bool)
    (accumulated : Digest) : Path.step sorted accumulated entry = step.climb sorted accumulated := by
  rw [Path.step, climb]
  obtain ⟨-, ⟨hleft, -, hside⟩ | ⟨hleft, hright, hside⟩⟩ := entry?_eq_some_iff.1 h
  · rw [hleft, hside]
  · rw [hleft, hright, hside, Option.getD_some]

theorem RecordedStep.side_of_entry? (h : step.entry? = some entry) :
    entry.side = .left ↔ step.left.isSome = true := by
  obtain ⟨-, ⟨hleft, -, hside⟩ | ⟨hleft, -, hside⟩⟩ := entry?_eq_some_iff.1 h
  · simp [hleft, hside]
  · simp [hleft, hside]

/-- The path of recorded steps has their steps, one by one. -/
theorem Path.ofRecorded?_eq_some_iff :
    Path.ofRecorded? steps = some path ↔
      List.Forall₂ (fun step entry => RecordedStep.entry? step = some entry) steps path := by
  induction steps generalizing path with
  | nil => simp [ofRecorded?, eq_comm]
  | cons step rest ih =>
      rw [List.forall₂_cons_left_iff, ofRecorded?, List.mapM_cons, Option.bind_eq_bind,
        Option.bind_eq_some_iff]
      refine exists_congr fun entry => ?_
      rw [Option.bind_eq_bind, Option.bind_eq_some_iff]
      constructor
      · rintro ⟨hentry, above, habove, hpath⟩
        exact ⟨above, hentry, ih.1 habove, (Option.some.inj hpath).symm⟩
      · rintro ⟨above, hentry, habove, rfl⟩
        exact ⟨hentry, above, ih.2 habove, rfl⟩

/-- Steps make a path as soon as each of them has exactly one sibling. -/
theorem Path.ofRecorded?_isSome_iff :
    (Path.ofRecorded? steps).isSome = true ↔
      ∀ step ∈ steps, step.left.isSome ≠ step.right.isSome := by
  simp only [← RecordedStep.entry?_isSome_iff]
  induction steps with
  | nil => simp [ofRecorded?]
  | cons step rest ih =>
      rw [List.forall_mem_cons, ← ih, ofRecorded?, List.mapM_cons, ofRecorded?]
      cases step.entry? <;> cases rest.mapM RecordedStep.entry? <;> simp

/-! ## What a path holds -/

theorem siblings_of_recorded (h : Path.ofRecorded? steps = some path) :
    path.siblings = steps.map RecordedStep.sibling := by
  have hsteps := Path.ofRecorded?_eq_some_iff.1 h
  clear h
  induction hsteps with
  | nil => rfl
  | @cons step entry rest above hentry _ ih =>
      rw [List.map_cons, ← RecordedStep.sibling_of_entry? hentry, ← ih]
      rfl

theorem foldl_of_recorded (h : Path.ofRecorded? steps = some path) (sorted : Bool)
    (accumulated : Digest) :
    path.foldl (Path.step sorted) accumulated
      = steps.foldl (RecordedStep.climb sorted) accumulated := by
  have hsteps := Path.ofRecorded?_eq_some_iff.1 h
  clear h
  induction hsteps generalizing accumulated with
  | nil => rfl
  | @cons step entry rest above hentry _ ih =>
      rw [List.foldl_cons, List.foldl_cons, RecordedStep.climb_of_entry? hentry, ih]

/-! ## Sides told by an index -/

/-- The bits of an index tell the sides of the steps, lowest bit first.  Behind the last bit every sibling
is on the right. -/
def SidesTold (steps : List RecordedStep) (leafIndex : UInt64) : Prop :=
  ∀ (k : Nat) (step : RecordedStep), steps[k]? = some step →
    (k < 64 → (step.left.isSome = true ↔ leafIndex.toNat.testBit k = true)) ∧
    (64 ≤ k → step.right.isSome = true)

theorem testBit_of_last_bit_lt {leafIndex : UInt64} {k : Nat} (h : 64 ≤ k) :
    leafIndex.toNat.testBit k = false :=
  Nat.testBit_lt_two_pow (leafIndex.toNat_lt.trans_le (Nat.pow_le_pow_right (by decide) h))

theorem Path.follows_of_sidesTold {leafIndex : UInt64} (h : Path.ofRecorded? steps = some path)
    (hsides : SidesTold steps leafIndex) : path.Follows 0 leafIndex.toNat := by
  intro k entry hk
  have hsteps := Path.ofRecorded?_eq_some_iff.1 h
  obtain ⟨step, hstep, hentry⟩ : ∃ step, steps[k]? = some step ∧ step.entry? = some entry := by
    obtain ⟨hbound, rfl⟩ := List.getElem?_eq_some_iff.1 hk
    have hk' : k < steps.length := by rwa [hsteps.length_eq]
    exact ⟨steps[k], List.getElem?_eq_getElem hk', hsteps.get hk' hbound⟩
  obtain ⟨hlow, hhigh⟩ := hsides k step hstep
  rw [Nat.zero_add, RecordedStep.side_of_entry? hentry]
  by_cases hbit : k < 64
  · exact hlow hbit
  · -- no bit is left, and the sibling is on the right
    have hone := RecordedStep.entry?_isSome_iff.1 (Option.isSome_of_mem hentry)
    rw [hhigh (by omega)] at hone
    rw [testBit_of_last_bit_lt (by omega)]
    exact iff_of_false hone Bool.false_ne_true

/-- Some index tells the sides exactly when the siblings behind its last bit are all on the right. -/
theorem exists_sidesTold_iff :
    (∃ leafIndex, SidesTold steps leafIndex) ↔
      ∀ (k : Nat) (step : RecordedStep), 64 ≤ k → steps[k]? = some step →
        step.right.isSome = true := by
  constructor
  · rintro ⟨leafIndex, hsides⟩ k step hhigh hstep
    exact (hsides k step hstep).2 hhigh
  · intro hright
    -- the index with one bit for each of the first steps
    let bits : Fin 64 → Bool := fun k => (steps[k.val]?.bind RecordedStep.left).isSome
    refine ⟨UInt64.ofNat (Nat.ofBits bits), fun k step hstep => ⟨fun hlow => ?_, fun hhigh => ?_⟩⟩
    · rw [UInt64.toNat_ofNat_of_lt' (Nat.ofBits_lt_two_pow bits), Nat.testBit_ofBits_lt bits k hlow]
      simp [bits, hstep]
    · exact hright k step hhigh hstep

end

/-! ## Both ways of checking -/

/-- Steps make a path exactly when each has one sibling, and then following the recorded sides is what the
path does, and its siblings are the recorded ones.  As a proof of a sorted tree they pass exactly when the
path does; as a proof by an index they do so for every index that tells the sides, which exists unless a
sibling behind the last bit is on the left. -/
theorem verify_of_recorded (steps : List RecordedStep) :
    ((∃ path, Path.ofRecorded? steps = some path) ↔
      ∀ step ∈ steps, step.left.isSome ≠ step.right.isSome) ∧
    ((∃ leafIndex, SidesTold steps leafIndex) ↔
      ∀ (k : Nat) (step : RecordedStep), 64 ≤ k → steps[k]? = some step →
        step.right.isSome = true) ∧
    ∀ path, Path.ofRecorded? steps = some path →
      path.siblings = steps.map RecordedStep.sibling ∧
      ∀ leaf root : Digest,
        (∀ sorted, path.verify leaf root sorted
          = (steps.foldl (RecordedStep.climb sorted) leaf == root)) ∧
        path.verify leaf root true = verifyProof leaf path.siblings root ∧
        ∀ leafIndex, SidesTold steps leafIndex →
          path.verify leaf root false
            = verifyWithOrder (.positional leafIndex) leaf path.siblings root := by
  refine ⟨?_, exists_sidesTold_iff, fun path hpath => ⟨siblings_of_recorded hpath, ?_⟩⟩
  · rw [← Option.isSome_iff_exists, Path.ofRecorded?_isSome_iff]
  · intro leaf root
    refine ⟨fun sorted => ?_, ?_, fun leafIndex hsides => ?_⟩
    · rw [Path.verify, foldl_of_recorded hpath]
    · rw [Path.verify, verifyProof, verifyWithOrder, foldProof_sorted_siblings]
    · rw [Path.verify, verifyWithOrder,
        foldProof_positional_siblings (Path.follows_of_sidesTold hpath hsides)]

/-- A way up that is longer than an index has bits, with a left sibling at its lower end and all hashes
the same. -/
theorem verify_of_long_way_up :
    let steps : List RecordedStep := ⟨Bytes32.zero, some Bytes32.zero, none⟩
      :: List.replicate 65 ⟨Bytes32.zero, none, some Bytes32.zero⟩
    ∃ path, Path.ofRecorded? steps = some path ∧ SidesTold steps 1 ∧ ∀ leaf root : Digest,
      path.verify leaf root true = verifyProof leaf path.siblings root ∧
      path.verify leaf root false = verifyWithOrder (.positional 1) leaf path.siblings root := by
  intro steps
  obtain ⟨hpath, -, hagree⟩ := verify_of_recorded steps
  obtain ⟨path, hpath⟩ := hpath.2 (by decide)
  have hsides : SidesTold steps 1 := by
    intro k step hstep
    cases k with
    | zero =>
        obtain rfl := Option.some.inj hstep
        exact ⟨fun _ => iff_of_true rfl rfl, fun hhigh => absurd hhigh (by decide)⟩
    | succ k =>
        have hright : step = ⟨Bytes32.zero, none, some Bytes32.zero⟩ :=
          List.eq_of_mem_replicate (List.mem_of_getElem? hstep)
        have hbit : (1 : UInt64).toNat.testBit (k + 1) = false :=
          Nat.testBit_lt_two_pow (Nat.one_lt_two_pow k.succ_ne_zero)
        rw [hright, hbit]
        exact ⟨fun _ => iff_of_false Bool.false_ne_true Bool.false_ne_true, fun _ => rfl⟩
  refine ⟨path, hpath, hsides, fun leaf root => ?_⟩
  obtain ⟨-, hsorted, hpositional⟩ := (hagree path hpath).2 leaf root
  exact ⟨hsorted, hpositional 1 hsides⟩

end Surety.Merkle
