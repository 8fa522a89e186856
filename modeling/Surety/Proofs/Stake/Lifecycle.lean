import Surety.Proofs.Stake.Coherence

/-!
# The life of a delegation

A delegation is delegating, then active, then deactivating, then deactivated.  Its stage is computed
anew for every epoch, by loops over the history that run for more epochs the later one looks; still no
stage comes back.  A delegation that was deactivated before it was activated is left out: it is
deactivated up to its activation and may be deactivating after it.

* `Stage.age?` is the order of the stages, `Stage.Precedes` compares two of them.
* `Delegation.stage_precedes` says that the activation of a delegation never goes back.
* `stages_in_order` is the result for the views of an account.
-/

namespace Surety.Stake

/-- The place of a stage in the life of a delegation.  The stages of an account without a delegation
have none. -/
def Stage.age? : Stage → Option Nat
  | .delegating => some 0
  | .active => some 1
  | .deactivating => some 2
  | .deactivated => some 3
  | .uninitialized => none
  | .initialized => none
  | .rewardsPool => none

/-- Two stages of a delegation, of which the first is not later than the second. -/
def Stage.Precedes (earlier later : Stage) : Prop :=
  ∃ i j, earlier.age? = some i ∧ later.age? = some j ∧ i ≤ j

namespace Activation

/-! A delegation that is not deactivated yet is as old as what is effective of it, and one that is
deactivated as old as what is left of it is small. -/

theorem age_running (effective activating : Nat) :
    (stage ⟨effective, activating, 0⟩).age?
      = some (if 0 < activating then 0 else if 0 < effective then 1 else 3) := by
  by_cases hactivating : 0 < activating
  · rw [stage_of_activating hactivating, if_pos hactivating]
    rfl
  · obtain rfl := Nat.eq_zero_of_not_pos hactivating
    rw [if_neg hactivating]
    by_cases heffective : 0 < effective
    · rw [stage_of_effective heffective, if_pos heffective]
      rfl
    · obtain rfl := Nat.eq_zero_of_not_pos heffective
      rfl

theorem age_stopped (left : Nat) :
    (stage ⟨left, 0, left⟩).age? = some (if 0 < left then 2 else 3) := by
  by_cases hleft : 0 < left
  · rw [stage_of_left hleft, if_pos hleft]
    rfl
  · obtain rfl := Nat.eq_zero_of_not_pos hleft
    rfl

/-- While the same stake warms up, it gets older. -/
theorem precedes_of_grown {effective activating effective' activating' : Nat}
    (hgrown : effective ≤ effective')
    (hsame : effective + activating = effective' + activating') :
    (stage ⟨effective, activating, 0⟩).Precedes (stage ⟨effective', activating', 0⟩) := by
  refine ⟨_, _, age_running _ _, age_running _ _, ?_⟩
  split_ifs <;> omega

/-- Stake gets older when it is deactivated, at whatever point of its warm-up. -/
theorem precedes_of_stopped {effective activating left : Nat} (hleft : left ≤ effective + activating) :
    (stage ⟨effective, activating, 0⟩).Precedes (stage ⟨left, 0, left⟩) := by
  refine ⟨_, _, age_running _ _, age_stopped _, ?_⟩
  split_ifs <;> omega

/-- While stake cools down, it gets older. -/
theorem precedes_of_shrunk {left left' : Nat} (hshrunk : left' ≤ left) :
    (stage ⟨left, 0, left⟩).Precedes (stage ⟨left', 0, left'⟩) := by
  refine ⟨_, _, age_stopped _, age_stopped _, ?_⟩
  split_ifs <;> omega

end Activation

/-- The stage of a delegation at a later epoch is not an earlier one, and if it is known then it is
known at the earlier epoch as well. -/
theorem Delegation.stage_precedes {d : Delegation} {history : History} {epoch later : Nat}
    {a' : Activation}
    (hinterval : d.activationEpoch.toNat = farEpoch ∨
      d.activationEpoch.toNat ≤ d.deactivationEpoch.toNat)
    (hstarted : d.activationEpoch.toNat = farEpoch ∨ d.activationEpoch.toNat ≤ epoch)
    (hle : epoch ≤ later) (h : d.activation history later = some a') :
    ∃ a, d.activation history epoch = some a ∧ a.stage.Precedes a'.stage := by
  obtain ⟨⟨effective', activating'⟩, hwarmed', ha'⟩ := Option.map_eq_some_iff.1 h
  obtain ⟨effective, activating, hwarmed, hgrown, hsame⟩ := warmed_mono hstarted hle hwarmed'
  refine ⟨_, activation_of_warmed hwarmed, ?_⟩
  dsimp only at ha'
  subst ha'
  by_cases hrunning : epoch < d.deactivationEpoch.toNat
  · rw [cooled_of_lt hrunning]
    by_cases hrunning' : later < d.deactivationEpoch.toNat
    · rw [cooled_of_lt hrunning']
      exact Activation.precedes_of_grown hgrown hsame
    · have hleft : d.left history later effective' ≤ effective' := left_le
      rw [cooled_of_stop_le (Nat.not_lt.1 hrunning')]
      exact Activation.precedes_of_stopped (by omega)
  · -- nothing warms up any more, so both epochs cool down from the same stake
    have hstopped := Nat.not_lt.1 hrunning
    rw [warmed_of_stop_le hinterval hstopped hle, hwarmed] at hwarmed'
    cases hwarmed'
    rw [cooled_of_stop_le hstopped, cooled_of_stop_le (Nat.le_trans hstopped hle)]
    exact Activation.precedes_of_shrunk (left_antitone hstopped hle)

/-- An account is looked at twice.  Its delegation is from the start or not deactivated before it is
activated, it is from the start or activated at the first look, and the sums of its warm-up up to the
second look stay within 64 bits.  Then both looks find a stage of a delegation, and the second does not
find an earlier one. -/
theorem stages_in_order (address : Address) (lamports : UInt64) {state : State} {d : Delegation}
    {history : History} {earlier later : Clock} (hd : state.delegation? = some d)
    (hinterval : d.activationEpoch.toNat = farEpoch ∨ d.activationEpoch ≤ d.deactivationEpoch)
    (hstarted : d.activationEpoch.toNat = farEpoch ∨ d.activationEpoch ≤ earlier.epoch)
    (hclocks : earlier.epoch ≤ later.epoch)
    (hsums : ∀ sum ∈ d.warmUpSums history later.epoch.toNat, sum < 2 ^ 64) :
    ∃ before after, classifyState address lamports state earlier history = some before ∧
      classifyState address lamports state later history = some after ∧
      before.stage.Precedes after.stage := by
  rw [UInt64.le_iff_toNat_le] at hinterval hstarted hclocks
  have hknown : d.activation history later.epoch.toNat ≠ none := by
    rw [ne_eq, Delegation.activation_eq_none_iff, Delegation.warmed_eq_none_iff]
    rintro ⟨sum, hsum, hover⟩
    exact absurd (hsums sum hsum) (Nat.not_lt.2 hover)
  obtain ⟨a', ha'⟩ := Option.ne_none_iff_exists'.1 hknown
  obtain ⟨a, ha, hprecedes⟩ := Delegation.stage_precedes hinterval hstarted hclocks ha'
  refine ⟨state.view address lamports earlier a.stage a.staked,
    state.view address lamports later a'.stage a'.staked, ?_, ?_, hprecedes⟩
  · rw [classifyState_of_delegation hd, ha, Option.map_some]
  · rw [classifyState_of_delegation hd, ha', Option.map_some]

/-- Stake warms up for two epochs, is deactivated before all of it is effective, and cools down. -/
theorem stages_of_stopped_warm_up :
    let delegation : Delegation := ⟨Bytes32.zero, 1000, 5, 7, 0⟩
    let state : State := .delegated ⟨7, Bytes32.zero, Bytes32.zero, ⟨0, 0, Bytes32.zero⟩⟩ delegation 0 0
    let history : History := ⟨[(7, ⟨4000, 0, 2000⟩), (6, ⟨4000, 2000, 0⟩), (5, ⟨4000, 2000, 0⟩)]⟩
    let earlier : Clock := ⟨6, 0, 0⟩
    let later : Clock := ⟨8, 0, 0⟩
    state.delegation? = some delegation ∧ delegation.activationEpoch ≤ delegation.deactivationEpoch ∧
      delegation.activationEpoch ≤ earlier.epoch ∧ earlier.epoch ≤ later.epoch ∧
      delegation.warmUpSums history later.epoch.toNat = [500, 750] ∧
      classifyState Bytes32.zero 1007 state earlier history
        = some (state.view Bytes32.zero 1007 earlier .delegating 1000) ∧
      classifyState Bytes32.zero 1007 state later history
        = some (state.view Bytes32.zero 1007 later .deactivating 750) ∧
      Stage.delegating.Precedes .deactivating := by
  intro delegation state history earlier later
  have hdelegation : state.delegation? = some delegation := rfl
  have hinterval : delegation.activationEpoch ≤ delegation.deactivationEpoch := by decide
  have hstarted : delegation.activationEpoch ≤ earlier.epoch := by decide
  have hclocks : earlier.epoch ≤ later.epoch := by decide
  have hsums : delegation.warmUpSums history later.epoch.toNat = [500, 750] := by decide +kernel
  have hbefore : classifyState Bytes32.zero 1007 state earlier history
      = some (state.view Bytes32.zero 1007 earlier .delegating 1000) := by decide +kernel
  have hafter : classifyState Bytes32.zero 1007 state later history
      = some (state.view Bytes32.zero 1007 later .deactivating 750) := by decide +kernel
  refine ⟨hdelegation, hinterval, hstarted, hclocks, hsums, hbefore, hafter, ?_⟩
  have hfits : ∀ sum ∈ delegation.warmUpSums history later.epoch.toNat, sum < 2 ^ 64 := by
    rw [hsums]
    decide
  obtain ⟨before, after, hview, hview', hprecedes⟩ :=
    stages_in_order Bytes32.zero 1007 hdelegation (.inr hinterval) (.inr hstarted) hclocks hfits
  cases hbefore.symm.trans hview
  cases hafter.symm.trans hview'
  exact hprecedes

end Surety.Stake
