import Surety.Proofs.Stake.Activation
import Surety.Stake.Suitability

/-!
# Views of stake accounts

The stage of an account, the stake that is told of it and its delegation are read off one activation.
They agree: an account without a delegation has no stake, a stage of movement has some, and a stage
tells where the clock stands to the epochs of the delegation.

* `Delegation.Seen` lists what can be seen of a delegation, and `Delegation.seen_of_activation` says
  that this is all.
* `Account.Coherent` lists what agrees; `view_coherent` is the result, which also says when an account
  has no view.
* `stake_of_view` says which lamports the told stake counts.  Stake that cools down is counted as
  effective and as deactivating, so a deactivating account is told to have twice the stake that is left
  of it; `cooling_stake_counted_twice` is such an account.
-/

namespace Surety.Stake

/-! ## What is seen of a delegation -/

/-- What can be seen of a delegation at an epoch, and the stage that it is in. -/
inductive Delegation.Seen (d : Delegation) (epoch : Nat) : Activation → Stage → Prop
  | delegating {effective activating : Nat} (hstarted : d.activationEpoch.toNat ≤ epoch)
      (hrunning : epoch < d.deactivationEpoch.toNat) (hsome : 0 < activating)
      (htotal : effective + activating = d.stake.toNat) :
      Seen d epoch ⟨effective, activating, 0⟩ .delegating
  | active (hrunning : epoch < d.deactivationEpoch.toNat) (hsome : 0 < d.stake.toNat) :
      Seen d epoch ⟨d.stake.toNat, 0, 0⟩ .active
  | deactivating {left : Nat} (hstopped : d.deactivationEpoch.toNat ≤ epoch) (hsome : 0 < left)
      (hwithin : left ≤ d.stake.toNat) :
      Seen d epoch ⟨left, 0, left⟩ .deactivating
  | deactivated : Seen d epoch ⟨0, 0, 0⟩ .deactivated

/-! The stage of each kind of activation. -/

namespace Activation

theorem stage_of_activating {effective activating : Nat} (hsome : 0 < activating) :
    stage ⟨effective, activating, 0⟩ = .delegating := by
  have hopen : ¬(effective = 0 ∧ activating = 0) := by omega
  rw [stage, if_neg hopen, if_neg (Nat.lt_irrefl 0), if_pos hsome]

theorem stage_of_effective {effective : Nat} (hsome : 0 < effective) :
    stage ⟨effective, 0, 0⟩ = .active := by
  have hopen : ¬(effective = 0 ∧ 0 = 0) := by omega
  rw [stage, if_neg hopen, if_neg (Nat.lt_irrefl 0), if_neg (Nat.lt_irrefl 0)]

theorem stage_of_left {left : Nat} (hsome : 0 < left) : stage ⟨left, 0, left⟩ = .deactivating := by
  have hopen : ¬(left = 0 ∧ 0 = 0) := by omega
  rw [stage, if_neg hopen, if_pos hsome]

theorem staked_toNat (a : Activation) :
    a.staked.toNat = min (a.effective + a.activating + a.deactivating) (2 ^ 64 - 1) := by
  have hfits : min (a.effective + a.activating + a.deactivating) largestWord < 2 ^ 64 := by
    unfold largestWord
    omega
  exact UInt64.toNat_ofNat_of_lt' hfits

end Activation

namespace Delegation

variable {d : Delegation} {history : History} {epoch : Nat} {a : Activation}

theorem seen_of_activation (h : d.activation history epoch = some a) : d.Seen epoch a a.stage := by
  obtain ⟨⟨effective, activating⟩, hwarmed, ha⟩ := Option.map_eq_some_iff.1 h
  obtain ⟨htotal, hstarted⟩ := warmed_total hwarmed
  dsimp only at ha
  by_cases hrunning : epoch < d.deactivationEpoch.toNat
  · rw [cooled_of_lt hrunning] at ha
    subst ha
    rcases Nat.eq_zero_or_pos activating with rfl | hsome
    · rcases Nat.eq_zero_or_pos effective with rfl | hsome
      · exact .deactivated
      · obtain rfl : effective = d.stake.toNat := by omega
        rw [Activation.stage_of_effective hsome]
        exact .active hrunning hsome
    · rw [Activation.stage_of_activating hsome]
      exact .delegating (hstarted hsome) hrunning hsome (by omega)
  · have hstopped := Nat.not_lt.1 hrunning
    have hleft : d.left history epoch effective ≤ effective := left_le
    rw [cooled_of_stop_le hstopped] at ha
    subst ha
    rcases Nat.eq_zero_or_pos (d.left history epoch effective) with hnothing | hsome
    · rw [hnothing]
      exact .deactivated
    · rw [Activation.stage_of_left hsome]
      exact .deactivating hstopped hsome (by omega)

namespace Seen

variable {stage : Stage}

theorem staked_eq_zero_iff (h : d.Seen epoch a stage) : a.staked = 0 ↔ stage = .deactivated := by
  rw [← UInt64.toNat_inj, Activation.staked_toNat, UInt64.toNat_zero]
  cases h with
  | delegating hstarted hrunning hsome htotal =>
      simp only [reduceCtorEq, iff_false]
      omega
  | active hrunning hsome =>
      simp only [reduceCtorEq, iff_false]
      omega
  | deactivating hstopped hsome hwithin =>
      simp only [reduceCtorEq, iff_false]
      omega
  | deactivated => simp

/-- Until it is deactivated, a delegation is told to have all of its stake. -/
theorem staked_eq_stake (h : d.Seen epoch a stage) (hstage : stage = .delegating ∨ stage = .active) :
    a.staked = d.stake := by
  have hlt := d.stake.toNat_lt
  apply UInt64.toNat_inj.1
  rw [Activation.staked_toNat]
  cases h with
  | delegating hstarted hrunning hsome htotal =>
      dsimp only
      omega
  | active hrunning hsome =>
      dsimp only
      omega
  | deactivating hstopped hsome hwithin => simp at hstage
  | deactivated => simp at hstage

end Seen

end Delegation

/-! ## Views -/

section

variable {address : Address} {lamports : UInt64} {state : State} {clock : Clock} {history : History}
  {account : Account} {d : Delegation}

/-- A delegated account is seen as its activation is. -/
theorem classifyState_of_delegation (hd : state.delegation? = some d) :
    classifyState address lamports state clock history
      = (d.activation history clock.epoch.toNat).map fun a =>
          state.view address lamports clock a.stage a.staked := by
  cases state with
  | uninitialized => cases hd
  | initialized info => cases hd
  | rewardsPool => cases hd
  | delegated info delegation creditsObserved flags =>
      cases hd
      rw [classifyState, State.observe, Option.map_map]
      rfl

/-- The view of a delegated account shows one activation of its delegation. -/
theorem view_of_delegation (hd : state.delegation? = some d)
    (h : classifyState address lamports state clock history = some account) :
    ∃ a, d.activation history clock.epoch.toNat = some a ∧ account.stage = a.stage ∧
      account.staked = a.staked := by
  rw [classifyState_of_delegation hd] at h
  obtain ⟨a, ha, rfl⟩ := Option.map_eq_some_iff.1 h
  exact ⟨a, ha, rfl, rfl⟩

/-- The view of an account without a delegation shows no stake. -/
theorem view_of_undelegated (hd : state.delegation? = none)
    (h : classifyState address lamports state clock history = some account) :
    (account.stage = .uninitialized ∨ account.stage = .initialized ∨ account.stage = .rewardsPool) ∧
      account.staked = 0 := by
  cases state with
  | uninitialized =>
      cases h
      exact ⟨.inl rfl, rfl⟩
  | initialized info =>
      cases h
      exact ⟨.inr (.inl rfl), rfl⟩
  | rewardsPool =>
      cases h
      exact ⟨.inr (.inr rfl), rfl⟩
  | delegated info delegation creditsObserved flags => cases hd

/-- A view names the vote account and the epoch of activation of the delegation. -/
theorem delegation_of_view (h : classifyState address lamports state clock history = some account) :
    account.voter = state.delegation?.map (·.voter) ∧
      account.activationEpoch = state.delegation?.map (·.activationEpoch) := by
  obtain ⟨⟨stage, staked⟩, -, rfl⟩ := Option.map_eq_some_iff.1 h
  exact ⟨rfl, rfl⟩

/-- An account has no view exactly when it is delegated and a sum of its warm-up leaves 64 bits. -/
theorem classifyState_eq_none_iff :
    classifyState address lamports state clock history = none ↔
      ∃ d, state.delegation? = some d ∧
        ∃ sum ∈ d.warmUpSums history clock.epoch.toNat, 2 ^ 64 ≤ sum := by
  cases hd : state.delegation? with
  | some d =>
      rw [classifyState_of_delegation hd, Option.map_eq_none_iff, Delegation.activation_eq_none_iff,
        Delegation.warmed_eq_none_iff]
      simp
  | none =>
      cases state with
      | uninitialized => simp [classifyState, State.observe]
      | initialized info => simp [classifyState, State.observe]
      | rewardsPool => simp [classifyState, State.observe]
      | delegated info delegation creditsObserved flags => cases hd

theorem Account.isTransient_iff :
    account.isTransient = true ↔
      (account.stage = .delegating ∨ account.stage = .deactivating) ∧ 0 < account.staked := by
  rw [isTransient, Bool.and_eq_true, Bool.or_eq_true, beq_iff_eq, beq_iff_eq, decide_eq_true_eq]

/-- A view of an account that agrees with itself, with the content of the account and with the
clock. -/
structure Account.Coherent (account : Account) (state : State) (clock : Clock) : Prop where
  staked_eq_zero_iff : account.staked = 0 ↔
    account.stage = .uninitialized ∨ account.stage = .initialized ∨ account.stage = .rewardsPool ∨
      account.stage = .deactivated
  isTransient_iff : account.isTransient = true ↔
    account.stage = .delegating ∨ account.stage = .deactivating
  voter_isSome_iff : account.voter.isSome = true ↔ ∃ d, state.delegation? = some d
  activationEpoch_isSome_iff : account.activationEpoch.isSome = true ↔
    ∃ d, state.delegation? = some d
  active : account.stage = .active → ∃ d, state.delegation? = some d ∧
    clock.epoch < d.deactivationEpoch ∧ account.staked = d.stake
  delegating : account.stage = .delegating → ∃ d, state.delegation? = some d ∧
    d.activationEpoch ≤ clock.epoch ∧ clock.epoch < d.deactivationEpoch ∧ account.staked = d.stake
  deactivating : account.stage = .deactivating → ∃ d, state.delegation? = some d ∧
    d.deactivationEpoch ≤ clock.epoch

theorem coherent_of_undelegated (hd : state.delegation? = none)
    (h : classifyState address lamports state clock history = some account) :
    account.Coherent state clock := by
  obtain ⟨hvoter, hactivation⟩ := delegation_of_view h
  obtain ⟨hstage, hstaked⟩ := view_of_undelegated hd h
  rw [hd] at hvoter hactivation
  refine ⟨?_, ?_, by simp [hvoter, hd], by simp [hactivation, hd], ?_, ?_, ?_⟩
  · rw [hstaked]
    rcases hstage with hstage | hstage | hstage <;> simp [hstage]
  · rw [Account.isTransient_iff, hstaked]
    rcases hstage with hstage | hstage | hstage <;> simp [hstage]
  -- the last three fields are about stages that only a delegation has
  all_goals
    intro hmoving
    rw [hmoving] at hstage
    simp at hstage

theorem coherent_of_delegation (hd : state.delegation? = some d)
    (h : classifyState address lamports state clock history = some account) :
    account.Coherent state clock := by
  obtain ⟨hvoter, hactivation⟩ := delegation_of_view h
  obtain ⟨a, ha, hstage, hstaked⟩ := view_of_delegation hd h
  have hseen := Delegation.seen_of_activation ha
  rw [← hstage] at hseen
  have hzero := hseen.staked_eq_zero_iff
  have hfull := hseen.staked_eq_stake
  rw [← hstaked] at hzero hfull
  rw [hd] at hvoter hactivation
  refine ⟨?_, ?_, by simp [hvoter, hd], by simp [hactivation, hd], ?_, ?_, ?_⟩
  · rw [hzero]
    generalize account.stage = stage at hseen
    cases hseen <;> simp
  · rw [Account.isTransient_iff]
    refine and_iff_left_of_imp fun hmoving => UInt64.pos_iff_ne_zero.2 fun hnothing => ?_
    rw [hzero.1 hnothing] at hmoving
    simp at hmoving
  · intro hactive
    rw [hactive] at hseen
    cases hseen with
    | active hrunning hsome =>
        exact ⟨d, hd, UInt64.lt_iff_toNat_lt.2 hrunning, hfull (.inr hactive)⟩
  · intro hdelegating
    rw [hdelegating] at hseen
    cases hseen with
    | delegating hstarted hrunning hsome htotal =>
        exact ⟨d, hd, UInt64.le_iff_toNat_le.2 hstarted, UInt64.lt_iff_toNat_lt.2 hrunning,
          hfull (.inl hdelegating)⟩
  · intro hdeactivating
    rw [hdeactivating] at hseen
    cases hseen with
    | deactivating hstopped hsome hwithin =>
        exact ⟨d, hd, UInt64.le_iff_toNat_le.2 hstopped⟩

end

/-- The view of any account at any clock and over any history is coherent; the only accounts without
a view are delegated ones with a warm-up that leaves 64 bits. -/
theorem view_coherent (address : Address) (lamports : UInt64) (state : State) (clock : Clock)
    (history : History) :
    (∀ account, classifyState address lamports state clock history = some account →
      account.Coherent state clock) ∧
    (classifyState address lamports state clock history = none ↔
      ∃ d, state.delegation? = some d ∧
        ∃ sum ∈ d.warmUpSums history clock.epoch.toNat, 2 ^ 64 ≤ sum) := by
  refine ⟨fun account h => ?_, classifyState_eq_none_iff⟩
  cases hd : state.delegation? with
  | none => exact coherent_of_undelegated hd h
  | some d => exact coherent_of_delegation hd h

/-- Half of the stake has warmed up in the epoch after its activation. -/
theorem view_of_half_warmed_stake :
    let delegation : Delegation := ⟨Bytes32.zero, 1000, 5, 18446744073709551615, 0⟩
    let state : State := .delegated ⟨7, Bytes32.zero, Bytes32.zero, ⟨0, 0, Bytes32.zero⟩⟩ delegation 0 0
    let history : History := ⟨[(5, ⟨4000, 2000, 0⟩)]⟩
    let clock : Clock := ⟨6, 0, 0⟩
    let account : Account := state.view Bytes32.zero 1007 clock .delegating 1000
    delegation.activation history 6 = some ⟨500, 500, 0⟩ ∧
      classifyState Bytes32.zero 1007 state clock history = some account ∧
      account.Coherent state clock := by
  intro delegation state history clock account
  have hactivation : delegation.activation history 6 = some ⟨500, 500, 0⟩ := by decide +kernel
  have hview : classifyState Bytes32.zero 1007 state clock history = some account := by decide +kernel
  exact ⟨hactivation, hview, (view_coherent _ _ _ _ _).1 account hview⟩

/-! ## Which lamports are counted -/

/-- Every lamport of a delegation is effective or activating at most, and as long as the account is
not deactivating it is told once.  Of a deactivating account all that is left is told twice, once as
effective and once as deactivating. -/
theorem stake_of_view {address : Address} {lamports : UInt64} {state : State} {clock : Clock}
    {history : History} {account : Account} {d : Delegation} (hd : state.delegation? = some d)
    (h : classifyState address lamports state clock history = some account) :
    ∃ a, d.activation history clock.epoch.toNat = some a ∧
      account.staked.toNat = min (a.effective + a.activating + a.deactivating) (2 ^ 64 - 1) ∧
      a.effective + a.activating ≤ d.stake.toNat ∧
      (account.stage ≠ .deactivating → a.deactivating = 0 ∧ account.staked ≤ d.stake) ∧
      (account.stage = .deactivating → a.activating = 0 ∧ a.deactivating = a.effective ∧
        account.staked.toNat = min (2 * a.effective) (2 ^ 64 - 1)) := by
  obtain ⟨a, ha, hstage, hstaked⟩ := view_of_delegation hd h
  have hseen := Delegation.seen_of_activation ha
  have htold : account.staked.toNat
      = min (a.effective + a.activating + a.deactivating) (2 ^ 64 - 1) := by
    rw [hstaked, Activation.staked_toNat]
  refine ⟨a, ha, htold, ?_⟩
  rw [UInt64.le_iff_toNat_le, htold, hstage]
  generalize a.stage = stage at hseen
  cases hseen with
  | delegating hstarted hrunning hsome htotal =>
      refine ⟨Nat.le_of_eq htotal, fun _ => ⟨rfl, ?_⟩, fun hother => by cases hother⟩
      dsimp only
      omega
  | active hrunning hsome =>
      refine ⟨Nat.le_refl _, fun _ => ⟨rfl, ?_⟩, fun hother => by cases hother⟩
      dsimp only
      omega
  | deactivating hstopped hsome hwithin =>
      refine ⟨hwithin, fun hother => absurd rfl hother, fun _ => ⟨rfl, rfl, ?_⟩⟩
      dsimp only
      omega
  | deactivated =>
      refine ⟨Nat.zero_le _, fun _ => ⟨rfl, ?_⟩, fun hother => by cases hother⟩
      dsimp only
      omega

/-- A quarter of the stake has cooled down, and the rest is told twice. -/
theorem stake_of_partly_cooled_view :
    let delegation : Delegation := ⟨Bytes32.zero, 1000, 18446744073709551615, 5, 0⟩
    let state : State := .delegated ⟨7, Bytes32.zero, Bytes32.zero, ⟨0, 0, Bytes32.zero⟩⟩ delegation 0 0
    let history : History := ⟨[(5, ⟨2000, 0, 2000⟩)]⟩
    let clock : Clock := ⟨6, 0, 0⟩
    let account : Account := state.view Bytes32.zero 1007 clock .deactivating 1500
    state.delegation? = some delegation ∧
      classifyState Bytes32.zero 1007 state clock history = some account ∧
      delegation.activation history 6 = some ⟨750, 0, 750⟩ ∧ account.staked.toNat = 2 * 750 := by
  intro delegation state history clock account
  have hdelegation : state.delegation? = some delegation := rfl
  have hview : classifyState Bytes32.zero 1007 state clock history = some account := by decide +kernel
  have hactivation : delegation.activation history 6 = some ⟨750, 0, 750⟩ := by decide +kernel
  refine ⟨hdelegation, hview, hactivation, ?_⟩
  obtain ⟨a, ha, -, -, -, htwice⟩ := stake_of_view hdelegation hview
  obtain rfl : a = ⟨750, 0, 750⟩ := Option.some.inj (ha.symm.trans hactivation)
  exact (htwice rfl).2.2

/-- In the epoch of its deactivation an account is told to have twice the stake that was delegated. -/
theorem cooling_stake_counted_twice :
    let delegation : Delegation := ⟨Bytes32.zero, 9000000000, 5, 10, 0⟩
    let state : State :=
      .delegated ⟨2282880, Bytes32.zero, Bytes32.zero, ⟨0, 0, Bytes32.zero⟩⟩ delegation 0 0
    let clock : Clock := ⟨10, 1000, 5⟩
    let account : Account := state.view Bytes32.zero 10000000000 clock .deactivating 18000000000
    classifyState Bytes32.zero 10000000000 state clock History.empty = some account ∧
      delegation.activation History.empty 10 = some ⟨9000000000, 0, 9000000000⟩ ∧
      ¬account.staked ≤ delegation.stake := by
  decide +kernel

end Surety.Stake
