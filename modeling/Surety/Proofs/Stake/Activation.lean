import Mathlib.Tactic.Common
import Surety.Stake.Delegation

/-!
# How the stake of a delegation moves

Stake that warms up only grows and never leaves the delegated amount; stake that cools down only
shrinks.  Both loops may stop early, because the history lacks an epoch, because the cluster moves
nothing or because the movement is over, and looking at a later epoch runs the same loop for more
epochs.  How large the share of an epoch is plays no part in any of this.

* `warmUpSums` are the sums of a warm-up over unbounded numbers; `warmUp_eq_none_iff` says that there
  is no answer exactly when one of them leaves 64 bits.
* `warmUp_bounds` and `warmUp_mono`, `coolDown_le` and `coolDown_antitone` are the laws of the two
  loops.
* `Delegation.warmed_total`, `Delegation.warmed_mono` and `Delegation.warmed_of_stop_le` are the laws of
  the stake before deactivation, `Delegation.cooled_of_stop_le` and `Delegation.left_antitone` those of
  what is left of it.
-/

namespace Surety.Stake

/-! ## The loops -/

/-- The sums that a warm-up arrives at one after another, over unbounded numbers. -/
def warmUpSums (history : History) (stake : Nat) :
    (steps : Nat) → (epoch : Nat) → HistoryEntry → (current : Nat) → List Nat
  | 0, _, _, _ => []
  | steps + 1, epoch, entry, current =>
      if entry.activating = 0 then []
      else
        let next := current
          + movedInto (epoch + 1) (stake - current) entry.activating.toNat entry.effective.toNat
        if stake ≤ next then [next]
        else
          match history.get? (epoch + 1) with
          | some entry => next :: warmUpSums history stake steps (epoch + 1) entry next
          | none => [next]

section

variable {history : History} {stake steps later epoch current last : Nat} {entry : HistoryEntry}

/-- A warm-up has no answer exactly when one of its sums leaves 64 bits. -/
theorem warmUp_eq_none_iff (hstake : stake ≤ largestWord) :
    warmUp history stake steps epoch entry current = none ↔
      ∃ sum ∈ warmUpSums history stake steps epoch entry current, largestWord < sum := by
  induction steps generalizing epoch entry current with
  | zero => simp [warmUp, warmUpSums]
  | succ steps ih =>
      rw [warmUp, warmUpSums]
      split
      · simp
      · dsimp only
        generalize current
          + movedInto (epoch + 1) (stake - current) entry.activating.toNat entry.effective.toNat = next
        -- a sum that leaves 64 bits is larger than the stake, so it is the last one either way
        by_cases hover : largestWord < next
        · simp [hover, show stake ≤ next by omega]
        · by_cases hdone : stake ≤ next
          · simp [hover, hdone]
          · rw [if_neg hover, if_neg hdone, if_neg hdone]
            cases history.get? (epoch + 1) with
            | none => simp [hover]
            | some after => simp [ih, hover]

/-- What has warmed up does not get less, and it stays within the delegated stake. -/
theorem warmUp_bounds (hcurrent : current ≤ stake)
    (h : warmUp history stake steps epoch entry current = some last) :
    current ≤ last ∧ last ≤ stake := by
  induction steps generalizing epoch entry current with
  | zero =>
      cases h
      exact ⟨Nat.le_refl _, hcurrent⟩
  | succ steps ih =>
      rw [warmUp] at h
      split at h
      · cases h
        exact ⟨Nat.le_refl _, hcurrent⟩
      · dsimp only at h
        generalize hshare : movedInto (epoch + 1) (stake - current) entry.activating.toNat
          entry.effective.toNat = share at h
        split at h
        · cases h
        · split at h
          · cases h
            exact ⟨hcurrent, Nat.le_refl _⟩
          · split at h
            · obtain ⟨hgrown, hwithin⟩ := ih (by omega) h
              exact ⟨by omega, hwithin⟩
            · cases h
              exact ⟨by omega, by omega⟩

/-- A warm-up that is looked at later has an answer earlier as well, and no less has warmed up. -/
theorem warmUp_mono (hcurrent : current ≤ stake) (hsteps : steps ≤ later)
    (h : warmUp history stake later epoch entry current = some last) :
    ∃ first, warmUp history stake steps epoch entry current = some first ∧ first ≤ last := by
  induction steps generalizing later epoch entry current with
  | zero => exact ⟨current, rfl, (warmUp_bounds hcurrent h).1⟩
  | succ steps ih =>
      obtain ⟨later, rfl⟩ : ∃ n, later = n + 1 := ⟨later - 1, by omega⟩
      rw [warmUp] at h ⊢
      split at h
      · rename_i hnothing
        exact ⟨last, by rw [if_pos hnothing, h], Nat.le_refl _⟩
      · rename_i hsomething
        rw [if_neg hsomething]
        dsimp only at h ⊢
        generalize current
          + movedInto (epoch + 1) (stake - current) entry.activating.toNat entry.effective.toNat = next
          at h ⊢
        split at h
        · cases h
        · rename_i hfits
          rw [if_neg hfits]
          split at h
          · rename_i hdone
            exact ⟨last, by rw [if_pos hdone, h], Nat.le_refl _⟩
          · rename_i hopen
            rw [if_neg hopen]
            -- both go on from the same sum, or the history ends for both
            cases hentry : history.get? (epoch + 1) with
            | none =>
                rw [hentry] at h
                exact ⟨last, h, Nat.le_refl _⟩
            | some after =>
                rw [hentry] at h
                exact ih (by omega) (by omega) h

/-- What is left does not grow while stake cools down. -/
theorem coolDown_le : coolDown history steps epoch entry current ≤ current := by
  induction steps generalizing epoch entry current with
  | zero => exact Nat.le_refl _
  | succ steps ih =>
      rw [coolDown]
      split
      · exact Nat.le_refl _
      · dsimp only
        generalize hshare : movedInto (epoch + 1) current entry.deactivating.toNat
          entry.effective.toNat = share
        split
        · exact Nat.zero_le _
        · split
          · exact Nat.le_trans ih (Nat.sub_le _ _)
          · exact Nat.sub_le _ _

/-- When cooling down is looked at later, no more is left. -/
theorem coolDown_antitone (hsteps : steps ≤ later) :
    coolDown history later epoch entry current ≤ coolDown history steps epoch entry current := by
  induction steps generalizing later epoch entry current with
  | zero => exact coolDown_le
  | succ steps ih =>
      obtain ⟨later, rfl⟩ : ∃ n, later = n + 1 := ⟨later - 1, by omega⟩
      rw [coolDown, coolDown]
      split
      · exact Nat.le_refl _
      · dsimp only
        split
        · exact Nat.le_refl _
        · split
          · exact ih (by omega)
          · exact Nat.le_refl _

end

namespace Delegation

section

variable {d : Delegation} {history : History} {epoch later effective activating : Nat}

/-! ## Before deactivation -/

/-- The number of epochs that a delegation warms up for until an epoch.  One that was deactivated
before it was activated still warms up for one epoch. -/
def warmUpSteps (d : Delegation) (epoch : Nat) : Nat :=
  if d.activationEpoch.toNat < d.deactivationEpoch.toNat then
    min epoch d.deactivationEpoch.toNat - d.activationEpoch.toNat
  else 1

/-- A delegation from the start is effective as a whole. -/
theorem warmed_of_far (hfar : d.activationEpoch.toNat = farEpoch) :
    d.warmed history epoch = some (d.stake.toNat, 0) :=
  if_pos hfar

/-- A delegation that is deactivated as soon as it is activated never has any stake. -/
theorem warmed_of_void (hfar : d.activationEpoch.toNat ≠ farEpoch)
    (hvoid : d.activationEpoch.toNat = d.deactivationEpoch.toNat) :
    d.warmed history epoch = some (0, 0) := by
  rw [warmed, if_neg hfar, if_pos hvoid]

section

variable (hfar : d.activationEpoch.toNat ≠ farEpoch)
  (hstop : d.activationEpoch.toNat ≠ d.deactivationEpoch.toNat)

include hfar hstop

theorem warmed_at_start (hepoch : epoch = d.activationEpoch.toNat) :
    d.warmed history epoch = some (0, d.stake.toNat) := by
  rw [warmed, if_neg hfar, if_neg hstop, if_pos hepoch]

theorem warmed_before_start (hepoch : epoch < d.activationEpoch.toNat) :
    d.warmed history epoch = some (0, 0) := by
  rw [warmed, if_neg hfar, if_neg hstop, if_neg (by omega), if_pos hepoch]

/-- A delegation whose start the history does not know is effective as a whole. -/
theorem warmed_of_unknown (hepoch : d.activationEpoch.toNat < epoch)
    (hentry : history.get? d.activationEpoch.toNat = none) :
    d.warmed history epoch = some (d.stake.toNat, 0) := by
  rw [warmed, if_neg hfar, if_neg hstop, if_neg (by omega), if_neg (by omega), hentry]

theorem warmed_of_known {entry : HistoryEntry} (hepoch : d.activationEpoch.toNat < epoch)
    (hentry : history.get? d.activationEpoch.toNat = some entry) :
    d.warmed history epoch
      = (warmUp history d.stake.toNat (d.warmUpSteps epoch) d.activationEpoch.toNat entry 0).map
          fun current => (current, d.stake.toNat - current) := by
  rw [warmed, if_neg hfar, if_neg hstop, if_neg (by omega), if_neg (by omega), hentry]
  rfl

end

/-- The sums that a delegation arrives at while it warms up, over unbounded numbers. -/
def warmUpSums (d : Delegation) (history : History) (epoch : Nat) : List Nat :=
  if d.activationEpoch.toNat = farEpoch ∨ d.activationEpoch.toNat = d.deactivationEpoch.toNat
      ∨ epoch ≤ d.activationEpoch.toNat then []
  else
    match history.get? d.activationEpoch.toNat with
    | none => []
    | some entry =>
        Stake.warmUpSums history d.stake.toNat (d.warmUpSteps epoch) d.activationEpoch.toNat entry 0

theorem stake_le_largestWord (d : Delegation) : d.stake.toNat ≤ largestWord := by
  have hlt := d.stake.toNat_lt
  unfold largestWord
  omega

/-- The stake of a delegation is unknown exactly when a sum of its warm-up leaves 64 bits. -/
theorem warmed_eq_none_iff :
    d.warmed history epoch = none ↔ ∃ sum ∈ d.warmUpSums history epoch, 2 ^ 64 ≤ sum := by
  by_cases hfar : d.activationEpoch.toNat = farEpoch
  · simp [warmed_of_far hfar, warmUpSums, hfar]
  by_cases hstop : d.activationEpoch.toNat = d.deactivationEpoch.toNat
  · simp [warmed_of_void hfar hstop, warmUpSums, hstop]
  rcases Nat.lt_trichotomy epoch d.activationEpoch.toNat with hbefore | hstart | hafter
  · simp [warmed_before_start hfar hstop hbefore, warmUpSums, Nat.le_of_lt hbefore]
  · simp [warmed_at_start hfar hstop hstart, warmUpSums, Nat.le_of_eq hstart]
  · have hopen : ¬(d.activationEpoch.toNat = farEpoch
        ∨ d.activationEpoch.toNat = d.deactivationEpoch.toNat
        ∨ epoch ≤ d.activationEpoch.toNat) := by
      simp [hfar, hstop, hafter]
    rw [warmUpSums, if_neg hopen]
    cases hentry : history.get? d.activationEpoch.toNat with
    | none => simp [warmed_of_unknown hfar hstop hafter hentry]
    | some entry =>
        have hbound : ∀ sum, 2 ^ 64 ≤ sum ↔ largestWord < sum := by
          unfold largestWord
          omega
        rw [warmed_of_known hfar hstop hafter hentry, Option.map_eq_none_iff,
          warmUp_eq_none_iff d.stake_le_largestWord]
        simp only [hbound]

/-- Once a delegation is activated all of its stake is effective or activating. -/
theorem warmed_sum (hfar : d.activationEpoch.toNat ≠ farEpoch)
    (hstop : d.activationEpoch.toNat ≠ d.deactivationEpoch.toNat)
    (hstarted : d.activationEpoch.toNat ≤ epoch)
    (h : d.warmed history epoch = some (effective, activating)) :
    effective + activating = d.stake.toNat := by
  rcases Nat.eq_or_lt_of_le hstarted with hstart | hafter
  · rw [warmed_at_start hfar hstop hstart.symm] at h
    cases h
    exact Nat.zero_add _
  · cases hentry : history.get? d.activationEpoch.toNat with
    | none =>
        rw [warmed_of_unknown hfar hstop hafter hentry] at h
        cases h
        rfl
    | some entry =>
        rw [warmed_of_known hfar hstop hafter hentry] at h
        obtain ⟨current, hcurrent, hsplit⟩ := Option.map_eq_some_iff.1 h
        cases hsplit
        have hwithin := (warmUp_bounds (Nat.zero_le _) hcurrent).2
        omega

/-- Before deactivation all of the delegated stake is effective or activating, unless nothing is; and
nothing is activating before the epoch of activation. -/
theorem warmed_total (h : d.warmed history epoch = some (effective, activating)) :
    (effective + activating = d.stake.toNat ∨ effective = 0 ∧ activating = 0) ∧
      (0 < activating → d.activationEpoch.toNat ≤ epoch) := by
  by_cases hfar : d.activationEpoch.toNat = farEpoch
  · rw [warmed_of_far hfar] at h
    cases h
    exact ⟨.inl rfl, fun hpos => absurd hpos (Nat.lt_irrefl 0)⟩
  by_cases hstop : d.activationEpoch.toNat = d.deactivationEpoch.toNat
  · rw [warmed_of_void hfar hstop] at h
    cases h
    exact ⟨.inr ⟨rfl, rfl⟩, fun hpos => absurd hpos (Nat.lt_irrefl 0)⟩
  by_cases hbefore : epoch < d.activationEpoch.toNat
  · rw [warmed_before_start hfar hstop hbefore] at h
    cases h
    exact ⟨.inr ⟨rfl, rfl⟩, fun hpos => absurd hpos (Nat.lt_irrefl 0)⟩
  · have hstarted := Nat.not_lt.1 hbefore
    exact ⟨.inl (warmed_sum hfar hstop hstarted h), fun _ => hstarted⟩

/-- Looking at a delegation that has been activated at a later epoch, no less of the same stake is
effective; and if its stake is known then it is known earlier as well. -/
theorem warmed_mono
    (hstarted : d.activationEpoch.toNat = farEpoch ∨ d.activationEpoch.toNat ≤ epoch)
    (hle : epoch ≤ later) (h : d.warmed history later = some (effective, activating)) :
    ∃ effective' activating', d.warmed history epoch = some (effective', activating') ∧
      effective' ≤ effective ∧ effective' + activating' = effective + activating := by
  by_cases hfar : d.activationEpoch.toNat = farEpoch
  · exact ⟨effective, activating, by rw [warmed_of_far hfar, ← h, warmed_of_far hfar], Nat.le_refl _,
      rfl⟩
  by_cases hstop : d.activationEpoch.toNat = d.deactivationEpoch.toNat
  · exact ⟨effective, activating, by rw [warmed_of_void hfar hstop, ← h, warmed_of_void hfar hstop],
      Nat.le_refl _, rfl⟩
  have hreached := hstarted.resolve_left hfar
  have hsum := warmed_sum hfar hstop (Nat.le_trans hreached hle) h
  -- at both epochs it is the whole stake, so only the effective part has to be compared
  suffices hgrown : ∃ effective' activating',
      d.warmed history epoch = some (effective', activating') ∧ effective' ≤ effective by
    obtain ⟨effective', activating', hwarmed, hgrown⟩ := hgrown
    exact ⟨effective', activating', hwarmed, hgrown,
      (warmed_sum hfar hstop hreached hwarmed).trans hsum.symm⟩
  rcases Nat.eq_or_lt_of_le hreached with hstart | hafter
  · exact ⟨0, d.stake.toNat, warmed_at_start hfar hstop hstart.symm, Nat.zero_le _⟩
  · have hafter' : d.activationEpoch.toNat < later := Nat.lt_of_lt_of_le hafter hle
    cases hentry : history.get? d.activationEpoch.toNat with
    | none =>
        rw [warmed_of_unknown hfar hstop hafter' hentry] at h
        cases h
        exact ⟨_, _, warmed_of_unknown hfar hstop hafter hentry, Nat.le_refl _⟩
    | some entry =>
        rw [warmed_of_known hfar hstop hafter' hentry] at h
        obtain ⟨current, hcurrent, hsplit⟩ := Option.map_eq_some_iff.1 h
        cases hsplit
        have hsteps : d.warmUpSteps epoch ≤ d.warmUpSteps later := by
          unfold warmUpSteps
          split <;> omega
        obtain ⟨first, hfirst, hgrown⟩ := warmUp_mono (Nat.zero_le _) hsteps hcurrent
        rw [warmed_of_known hfar hstop hafter hentry, hfirst]
        exact ⟨first, _, rfl, hgrown⟩

/-- From the epoch of deactivation on nothing warms up any more. -/
theorem warmed_of_stop_le
    (hinterval : d.activationEpoch.toNat = farEpoch ∨
      d.activationEpoch.toNat ≤ d.deactivationEpoch.toNat)
    (hstopped : d.deactivationEpoch.toNat ≤ epoch) (hle : epoch ≤ later) :
    d.warmed history later = d.warmed history epoch := by
  by_cases hfar : d.activationEpoch.toNat = farEpoch
  · rw [warmed_of_far hfar, warmed_of_far hfar]
  by_cases hstop : d.activationEpoch.toNat = d.deactivationEpoch.toNat
  · rw [warmed_of_void hfar hstop, warmed_of_void hfar hstop]
  have hbefore : d.activationEpoch.toNat < d.deactivationEpoch.toNat :=
    Nat.lt_of_le_of_ne (hinterval.resolve_left hfar) hstop
  have hafter : d.activationEpoch.toNat < epoch := by omega
  have hafter' : d.activationEpoch.toNat < later := by omega
  cases hentry : history.get? d.activationEpoch.toNat with
  | none =>
      rw [warmed_of_unknown hfar hstop hafter hentry, warmed_of_unknown hfar hstop hafter' hentry]
  | some entry =>
      have hsteps : d.warmUpSteps later = d.warmUpSteps epoch := by
        rw [warmUpSteps, warmUpSteps, if_pos hbefore, if_pos hbefore]
        omega
      rw [warmed_of_known hfar hstop hafter hentry, warmed_of_known hfar hstop hafter' hentry, hsteps]

/-! ## After deactivation -/

/-- The stake that is left at an epoch that is not before the one of deactivation. -/
def left (d : Delegation) (history : History) (epoch effective : Nat) : Nat :=
  if epoch = d.deactivationEpoch.toNat then effective
  else
    match history.get? d.deactivationEpoch.toNat with
    | none => 0
    | some entry =>
        coolDown history (epoch - d.deactivationEpoch.toNat) d.deactivationEpoch.toNat entry effective

theorem left_le : d.left history epoch effective ≤ effective := by
  unfold left
  split
  · exact Nat.le_refl _
  · split
    · exact Nat.zero_le _
    · exact coolDown_le

/-- At a later epoch no more is left. -/
theorem left_antitone (hstopped : d.deactivationEpoch.toNat ≤ epoch) (hle : epoch ≤ later) :
    d.left history later effective ≤ d.left history epoch effective := by
  by_cases hstop : epoch = d.deactivationEpoch.toNat
  · rw [show d.left history epoch effective = effective from if_pos hstop]
    exact left_le
  · rw [left, left, if_neg (by omega), if_neg hstop]
    cases history.get? d.deactivationEpoch.toNat with
    | none => exact Nat.le_refl 0
    | some entry => exact coolDown_antitone (by omega)

theorem cooled_of_lt (hepoch : epoch < d.deactivationEpoch.toNat) :
    d.cooled history epoch effective activating = ⟨effective, activating, 0⟩ :=
  if_pos hepoch

/-- From the epoch of deactivation on, all that is left is effective and deactivating. -/
theorem cooled_of_stop_le (hstopped : d.deactivationEpoch.toNat ≤ epoch) :
    d.cooled history epoch effective activating
      = ⟨d.left history epoch effective, 0, d.left history epoch effective⟩ := by
  rw [cooled, if_neg (by omega), left]
  by_cases hstop : epoch = d.deactivationEpoch.toNat
  · rw [if_pos hstop, if_pos hstop]
  · rw [if_neg hstop, if_neg hstop]
    cases history.get? d.deactivationEpoch.toNat <;> rfl

theorem activation_eq_none_iff : d.activation history epoch = none ↔ d.warmed history epoch = none :=
  Option.map_eq_none_iff

theorem activation_of_warmed (h : d.warmed history epoch = some (effective, activating)) :
    d.activation history epoch = some (d.cooled history epoch effective activating) := by
  rw [activation, h, Option.map_some]

end

end Delegation

end Surety.Stake
