import Surety.Proofs.Settlement.Step

/-!
# The phases of a settlement

A settlement is not yet claimable, then open, then expired, then closed.  Two measures of time decide
on the phase, slots on the beginning of the window and epochs on its end, and a window may end before
it begins; closing is not a matter of time at all.  All the same no phase comes back.

* `SettlementStatus.rank` is the order of the phases, `Clock.Precedes` that of points in time.
* `status_rank_le_run` says that a run of whatever operations never leads back.
* `Claims.statuses` is what an observer sees, before and after each operation of a run.
* `phases_of_run` adds that claims are admitted inside the window only, and that a settlement is closed
  only when no claim can be admitted any more.
-/

namespace Surety

/-- The place of a status in the order in which a settlement passes through them. -/
def SettlementStatus.rank : SettlementStatus → Nat
  | .notYetClaimable => 0
  | .opened => 1
  | .expired => 2
  | .closed => 3

theorem SettlementStatus.rank_le_closed (status : SettlementStatus) :
    status.rank ≤ SettlementStatus.closed.rank := by
  cases status <;> decide

/-- Time goes on from one clock to another, in epochs and in slots. -/
def Clock.Precedes (earlier later : Clock) : Prop :=
  earlier.epoch ≤ later.epoch ∧ earlier.slot ≤ later.slot

theorem Clock.Precedes.refl (clock : Clock) : clock.Precedes clock :=
  ⟨UInt64.le_refl _, UInt64.le_refl _⟩

instance (earlier later : Clock) : Decidable (earlier.Precedes later) :=
  inferInstanceAs (Decidable (_ ∧ _))

/-- Where a window stands to time never goes back: once it has begun it has begun, and once it has
ended it has ended, whether it had begun or not. -/
theorem Settlement.status_rank_le {s : Settlement} {earlier later : Clock}
    (h : earlier.Precedes later) : (s.status earlier).rank ≤ (s.status later).rank := by
  obtain ⟨hepoch, hslot⟩ := h
  unfold status
  by_cases hended : s.claimableUntilEpoch < earlier.epoch
  · have hstill : s.claimableUntilEpoch < later.epoch := UInt64.lt_of_lt_of_le hended hepoch
    simp [hended, hstill]
  · by_cases hahead : earlier.slot < s.claimableFromSlot
    · simp [hended, hahead, SettlementStatus.rank]
    · have hbegun : ¬later.slot < s.claimableFromSlot := by
        intro hlater
        exact hahead (UInt64.lt_of_le_of_lt hslot hlater)
      simp only [if_neg hended, if_neg hahead, if_neg hbegun]
      split <;> decide

namespace Claims

variable {claims : Claims}

/-- However a settlement is operated on while time goes on, its status never goes back. -/
theorem status_rank_le_run {earlier later : Clock} (h : earlier.Precedes later)
    (operations : List Operation) :
    (claims.status earlier).rank ≤ ((claims.run operations).status later).rank := by
  rw [status_run]
  by_cases hclosed : (claims.run operations).isClosed = true
  · rw [if_pos hclosed]
    exact SettlementStatus.rank_le_closed _
  · have hopen : ¬claims.isClosed = true := by
      intro hwas
      exact hclosed ((isClosed_run_iff claims operations).2 (.inl hwas))
    rw [if_neg hclosed, status, if_neg hopen]
    exact Settlement.status_rank_le h

/-! ## What an observer sees -/

/-- The statuses of a run, observed right before and right after each of its operations, at the clock
that the operation stands beside. -/
def statuses (claims : Claims) : List (Clock × Operation) → List SettlementStatus
  | [] => []
  | (clock, operation) :: rest =>
      claims.status clock :: (claims.after operation).status clock
        :: (claims.after operation).statuses rest

theorem of_mem_statuses {timeline : List (Clock × Operation)} {status : SettlementStatus}
    (h : status ∈ claims.statuses timeline) :
    ∃ operations, ∃ clock ∈ timeline.map (·.1), status = (claims.run operations).status clock := by
  induction timeline generalizing claims with
  | nil => cases h
  | cons moment rest ih =>
      obtain ⟨clock, operation⟩ := moment
      rw [statuses, List.mem_cons, List.mem_cons] at h
      rcases h with rfl | rfl | hrest
      · exact ⟨[], clock, by simp, rfl⟩
      · exact ⟨[operation], clock, by simp, rfl⟩
      · obtain ⟨operations, later, hlater, rfl⟩ := ih hrest
        exact ⟨operation :: operations, later, by simp [hlater], rfl⟩

theorem statuses_pairwise {timeline : List (Clock × Operation)}
    (hordered : (timeline.map (·.1)).Pairwise Clock.Precedes) :
    ((claims.statuses timeline).map SettlementStatus.rank).Pairwise (· ≤ ·) := by
  induction timeline generalizing claims with
  | nil => exact .nil
  | cons moment rest ih =>
      obtain ⟨clock, operation⟩ := moment
      obtain ⟨hfirst, hrest⟩ := List.pairwise_cons.1 hordered
      -- what is seen later is the status after more operations, at a later clock
      have hlater : ∀ rank ∈ ((claims.after operation).statuses rest).map SettlementStatus.rank,
          ((claims.after operation).status clock).rank ≤ rank := by
        intro rank hrank
        obtain ⟨status, hstatus, rfl⟩ := List.mem_map.1 hrank
        obtain ⟨operations, later, hmem, rfl⟩ := of_mem_statuses hstatus
        exact status_rank_le_run (hfirst later hmem) operations
      have hhere : (claims.status clock).rank ≤ ((claims.after operation).status clock).rank :=
        status_rank_le_run (Clock.Precedes.refl clock) [operation]
      rw [statuses, List.map_cons, List.map_cons, List.pairwise_cons, List.pairwise_cons]
      refine ⟨?_, hlater, ih hrest⟩
      intro rank hrank
      rcases List.mem_cons.1 hrank with rfl | hrank
      · exact hhere
      · exact hhere.trans (hlater rank hrank)

/-! ## Admitting and closing -/

/-- A claim that a run admits was submitted inside the window. -/
theorem window_of_admitted {operations : List Operation} {request : ClaimRequest} {clock : Clock}
    {admission : ClaimAdmission}
    (h : (.accept request clock, .ok (.admitted admission)) ∈ claims.events operations) :
    claims.settlement.claimableFromSlot ≤ clock.slot ∧
      clock.epoch ≤ claims.settlement.claimableUntilEpoch := by
  obtain ⟨before, next, -, hstep⟩ := step_of_mem_events h
  cases hstep with
  | accept hopen hwindow =>
      obtain ⟨-, -, -, hstatus⟩ := Settlement.limits_of_constants (run_constants claims before).2
      exact Settlement.status_eq_opened_iff.1 ((hstatus clock).symm.trans hwindow)

/-- Once the window has ended, every request is told so as long as the settlement is not closed. -/
theorem planAdmission_of_ended {bitmap : ClaimBitmap} (hopen : claims.bitmap = some bitmap)
    {clock : Clock} (hended : claims.settlement.claimableUntilEpoch < clock.epoch)
    (request : ClaimRequest) :
    claims.planAdmission request clock
      = .error (.settlementExpired claims.settlement.claimableUntilEpoch clock.epoch) := by
  have hexpired := Settlement.status_eq_expired_iff.2 hended
  rw [planAdmission_eq, hopen]
  simp only [Settlement.checkClaimable, hexpired]

/-- A run in the course of which time goes on.  Its statuses never go back; each claim that it admits
was submitted inside the window; and closing cuts off no claim: in a state in which closing succeeds,
every request is refused as expired, at that epoch and at every later one. -/
theorem phases_of_run {timeline : List (Clock × Operation)}
    (hordered : (timeline.map (·.1)).Pairwise Clock.Precedes) :
    let operations := timeline.map (·.2)
    ((claims.statuses timeline).map SettlementStatus.rank).Pairwise (· ≤ ·) ∧
    (∀ request clock admission,
      (.accept request clock, .ok (.admitted admission)) ∈ claims.events operations →
        claims.settlement.claimableFromSlot ≤ clock.slot ∧
          clock.epoch ≤ claims.settlement.claimableUntilEpoch) ∧
    ∀ before clock report closed, (claims.run before).close clock = .ok (report, closed) →
      ∀ request now, clock.epoch ≤ now.epoch →
        (claims.run before).planAdmission request now
          = .error (.settlementExpired (claims.run before).settlement.claimableUntilEpoch
              now.epoch) := by
  intro operations
  refine ⟨statuses_pairwise hordered, fun _ _ _ hadmitted => window_of_admitted hadmitted, ?_⟩
  intro before clock report closed hclose request now hlater
  obtain ⟨bitmap, hopen, hexpired, -, -⟩ := close_eq_ok_iff.1 hclose
  have hended := Settlement.status_eq_expired_iff.1 hexpired
  exact planAdmission_of_ended hopen (UInt64.lt_of_lt_of_le hended hlater) request

/-- A plan is recorded before the window begins, closing is refused inside it and succeeds after it. -/
theorem phases_of_closed_run :
    let config : Config := ⟨Bytes32.zero, Bytes32.zero, 3, 5, 3, 0⟩
    let terms : SettlementTerms := ⟨Bytes32.zero, Bytes32.zero, 10, 9, 0, 0, Bytes32.zero⟩
    let timeline : List (Clock × Operation) :=
      [(⟨0, 0, 0⟩, .record (.wholeAccount Bytes32.zero Bytes32.zero 3)),
        (⟨1, 6, 0⟩, .close ⟨1, 6, 0⟩), (⟨4, 7, 0⟩, .close ⟨4, 7, 0⟩)]
    ∃ settlement claims, Settlement.create terms config = .ok settlement ∧
      start settlement config = .ok claims ∧
      (timeline.map (·.1)).Pairwise Clock.Precedes ∧
      claims.statuses timeline
        = [.notYetClaimable, .notYetClaimable, .opened, .opened, .expired, .closed] ∧
      ((claims.statuses timeline).map SettlementStatus.rank).Pairwise (· ≤ ·) := by
  intro config terms timeline
  have hordered : (timeline.map (·.1)).Pairwise Clock.Precedes := by
    simp only [timeline, List.map_cons, List.map_nil]
    decide
  exact ⟨_, _, rfl, rfl, hordered, by decide +kernel, (phases_of_run hordered).1⟩

end Claims

end Surety
