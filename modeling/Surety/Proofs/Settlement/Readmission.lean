import Surety.Proofs.Settlement.Ledger

/-!
# No claim is admitted twice

Once a claim is admitted, its leaf stays marked and its proof keeps leading to the root, whatever is
funded, admitted, refused or closed afterwards.  So the same request gets as far as the bitmap in every
later state, unless the settlement is closed or the clock is outside the window, and no further: it is
never told that a limit is reached or that its proof is wrong.

* `Claims.Redeemed` is what an admission leaves behind; every step keeps it.
* `Claims.refusalAgain` is the answer to a request that is submitted again.
* `readmission_refused` is the result for a run.

Another request for the same leaf is not admitted either.  What it is told is not said here: its proof
may be wrong.
-/

namespace Surety

namespace Claims

/-- Why a request that was admitted once is refused. -/
def refusalAgain (claims : Claims) (request : ClaimRequest) (clock : Clock) : Error :=
  match claims.status clock with
  | .closed => .settlementClosed
  | .expired => .settlementExpired claims.settlement.claimableUntilEpoch clock.epoch
  | .notYetClaimable => .notYetClaimable claims.settlement.claimableFromSlot clock.slot
  | .opened => .alreadyClaimed request.index

theorem refusalAgain_of_opened {claims : Claims} {request : ClaimRequest} {clock : Clock}
    (h : claims.status clock = .opened) :
    claims.refusalAgain request clock = .alreadyClaimed request.index := by
  rw [refusalAgain, h]

theorem refusalAgain_of_closed {claims : Claims} {request : ClaimRequest} {clock : Clock}
    (h : claims.status clock = .closed) :
    claims.refusalAgain request clock = .settlementClosed := by
  rw [refusalAgain, h]

/-- The proof of a request leads to the root, and its leaf is marked as long as there is a bitmap. -/
structure Redeemed (request : ClaimRequest) (claims : Claims) : Prop where
  proves : Merkle.verifyProof request.leaf request.proof claims.settlement.merkleRoot = true
  marked : ∀ bitmap, claims.bitmap = some bitmap → bitmap.get request.index = .ok true

section

variable {claims claims' : Claims} {request : ClaimRequest}

/-! ## What an admission leaves behind -/

theorem redeemed_of_accept {clock : Clock} {admission : ClaimAdmission}
    (h : claims.accept request clock = .ok (admission, claims')) : Redeemed request claims' := by
  obtain ⟨bitmap, bitmap', lamports, nodes, -, -, hproof, hset, -, -, rfl⟩ := accept_eq_ok_iff.1 h
  refine ⟨hproof, ?_⟩
  intro other hother
  obtain rfl : bitmap' = other := Option.some.inj hother
  exact ClaimBitmap.get_self_of_trySet hset

theorem Redeemed.step {operation : Operation} {outcome : Outcome} (h : Redeemed request claims)
    (hstep : Step claims operation outcome claims') : Redeemed request claims' := by
  have hroot := (Settlement.limits_of_constants (step_constants hstep).2).1
  refine ⟨by rw [hroot]; exact h.proves, ?_⟩
  intro bitmap' hopen'
  cases hstep with
  | record => exact h.marked bitmap' hopen'
  | accept hopen _ _ hset =>
      obtain rfl := Option.some.inj hopen'
      exact ClaimBitmap.get_of_trySet hset (h.marked _ hopen)
  | close => cases hopen'

theorem Redeemed.run (h : Redeemed request claims) (operations : List Operation) :
    Redeemed request (claims.run operations) :=
  run_of_step Redeemed.step h operations

/-! ## What it is answered -/

theorem Redeemed.planAdmission_eq (h : Redeemed request claims) (clock : Clock) :
    claims.planAdmission request clock = .error (claims.refusalAgain request clock) := by
  rw [Claims.planAdmission_eq, refusalAgain, status, isClosed]
  cases hopen : claims.bitmap with
  | none => rfl
  | some bitmap =>
      dsimp only [Option.isNone_some]
      rw [if_neg Bool.false_ne_true, Settlement.checkClaimable, h.proves, h.marked bitmap hopen]
      -- the window is asked before proof and bitmap, and a settlement alone is never closed
      cases hstatus : claims.settlement.status clock with
      | notYetClaimable => rfl
      | opened => rfl
      | expired => rfl
      | closed => exact absurd hstatus Settlement.status_ne_closed

theorem Redeemed.perform_eq (h : Redeemed request claims) (clock : Clock) :
    claims.perform (.accept request clock) = .error (claims.refusalAgain request clock) := by
  rw [perform, accept, h.planAdmission_eq]
  rfl

/-- No operation that is admitted asks for the leaf again, with whatever proof. -/
theorem Redeemed.not_granted (h : Redeemed request claims) (operations : List Operation) :
    request.index ∉ (claims.grants operations).map (·.1.index) := by
  intro hmem
  obtain ⟨⟨other, admission⟩, hgrant, hsame⟩ := List.mem_map.1 hmem
  obtain ⟨clock, before, next, -, hstep⟩ := step_of_mem_grants hgrant
  cases hstep with
  | accept hopen hwindow hproof hset hcount =>
      -- the leaf that is set was off, and that of the request is on
      have hfree := (ClaimBitmap.trySet_eq_ok_iff.1 hset).1
      have hmarked := (h.run before).marked _ hopen
      rw [← hsame, hfree] at hmarked
      cases hmarked

/-! ## Runs after an admission -/

/-- Once a request was admitted, every later state of the run refuses it and stays as it is.  The
settlement is closed, if closing it succeeded since; else the clock is outside the window; else the
leaf was claimed.  And nothing that is admitted later has the index of the request. -/
theorem readmission_refused {next : Claims} {first middle : List Operation} {clock : Clock}
    {admission : ClaimAdmission}
    (hadmitted : (claims.run first).accept request clock = .ok (admission, next)) :
    let later := next.run middle
    (later.isClosed = true ↔ next.closings middle ≠ []) ∧
    (∀ now, later.planAdmission request now = .error (later.refusalAgain request now) ∧
      later.perform (.accept request now) = .error (later.refusalAgain request now) ∧
      later.after (.accept request now) = later) ∧
    request.index ∉ (next.grants middle).map (·.1.index) := by
  intro later
  have hredeemed : Redeemed request next := redeemed_of_accept hadmitted
  have hlater : Redeemed request later := hredeemed.run middle
  have hopen : next.isClosed = false := by
    obtain ⟨_, _, _, _, -, -, -, -, -, -, rfl⟩ := accept_eq_ok_iff.1 hadmitted
    rfl
  refine ⟨?_, ?_, hredeemed.not_granted middle⟩
  · rw [isClosed_run_iff, hopen]
    simp
  · intro now
    have hrefused := hlater.perform_eq now
    exact ⟨hlater.planAdmission_eq now, hrefused, after_of_error hrefused⟩

/-- The only leaf of a settlement is claimed, which uses up its total, its leaves and its funding.
The same request is told that the leaf was claimed, and after closing that the settlement is closed. -/
theorem readmission_refused_when_used_up :
    let r : Merkle.IndexedClaimRecord := ⟨Bytes32.zero, Bytes32.zero, 3, 0, none⟩
    let request := ClaimRequest.ofRecord r
    let terms : SettlementTerms := ⟨Bytes32.zero, r.leaf, 3, 1, 0, 0, Bytes32.zero⟩
    let config : Config := ⟨Bytes32.zero, Bytes32.zero, 3, 0, 3, 0⟩
    let first : List Operation := [.record (.wholeAccount Bytes32.zero Bytes32.zero 3)]
    ∃ settlement claims admission next, Settlement.create terms config = .ok settlement ∧
      start settlement config = .ok claims ∧
      (claims.run first).accept request ⟨0, 0, 0⟩ = .ok (admission, next) ∧
      next.perform (.accept request ⟨1, 0, 0⟩) = .error (.alreadyClaimed 0) ∧
      (next.run [.close ⟨4, 0, 0⟩]).perform (.accept request ⟨4, 0, 0⟩)
        = .error .settlementClosed := by
  intro r request terms config first
  obtain ⟨settlement, hcreate, hopened, hreopened, hexpired⟩ : ∃ settlement,
      Settlement.create terms config = .ok settlement ∧ settlement.status ⟨0, 0, 0⟩ = .opened ∧
        settlement.status ⟨1, 0, 0⟩ = .opened ∧ settlement.status ⟨4, 0, 0⟩ = .expired :=
    ⟨_, rfl, rfl, rfl, rfl⟩
  obtain ⟨hroot, htotal, hmax, hfunded, hclaimed, hnodes⟩ := Settlement.fields_of_create hcreate
  obtain ⟨claims, hstart⟩ : ∃ claims, start settlement config = .ok claims := by
    rw [start, hmax]
    exact ⟨_, rfl⟩
  obtain ⟨rfl, bitmap, hbitmap, hempty⟩ := start_eq_ok hstart
  have hplan : claims.settlement.recordFunding (.wholeAccount Bytes32.zero Bytes32.zero 3)
      = .ok { claims.settlement with lamportsFunded := 3 } :=
    Settlement.recordFunding_eq_ok_iff.2 ⟨by rw [hfunded]; rfl, rfl⟩
  have hrun : claims.run first
      = { claims with settlement := { claims.settlement with lamportsFunded := 3 } } :=
    after_of_step (.record hbitmap hplan)
  obtain ⟨bitmap', hset⟩ : ∃ bitmap', bitmap.trySet 0 = .ok bitmap' := by
    obtain ⟨hrecords, -, hoff⟩ := ClaimBitmap.empty_eq_ok hempty
    refine ClaimBitmap.exists_trySet (ClaimBitmap.get_eq_ok_iff.2 ⟨?_, hoff 0⟩)
    rw [hrecords, hmax]
    decide
  have haccept : (claims.run first).accept request ⟨0, 0, 0⟩
      = .ok ((claims.run first).admissionOf request 3 1, (claims.run first).credit bitmap' 3 1) := by
    rw [hrun]
    refine accept_eq_ok_iff.2 ⟨bitmap, bitmap', 3, 1, hbitmap, hopened, ?_, hset, ?_, rfl, rfl⟩
    · exact Merkle.verifyWithOrder_iff.2 hroot.symm
    · refine countClaim_eq_ok_iff.2 ⟨?_, ?_, ?_, ?_, UInt64.le_refl _⟩
      · change claims.settlement.lamportsClaimed.toNat + 3 = 3
        rw [hclaimed]
        rfl
      · change claims.settlement.merkleNodesClaimed.toNat + 1 = 1
        rw [hnodes]
        rfl
      · exact htotal ▸ UInt64.le_refl _
      · exact hmax ▸ UInt64.le_refl _
  refine ⟨claims.settlement, claims, _, _, hcreate, hstart, haccept, ?_, ?_⟩
  · obtain ⟨-, hrefused, -⟩ := @readmission_refused claims request _ first [] _ _ haccept
    have hagain : ((claims.run first).credit bitmap' 3 1).status ⟨1, 0, 0⟩ = .opened := by
      rw [hrun]
      exact hreopened
    exact (hrefused ⟨1, 0, 0⟩).2.1.trans (congrArg Except.error (refusalAgain_of_opened hagain))
  · obtain ⟨-, hrefused, -⟩ :=
      @readmission_refused claims request _ first [.close ⟨4, 0, 0⟩] _ _ haccept
    have hclose : ((claims.run first).credit bitmap' 3 1).run [.close ⟨4, 0, 0⟩]
        = { (claims.run first).credit bitmap' 3 1 with bitmap := none } :=
      after_of_step (.close rfl (by rw [hrun]; exact hexpired))
    have hagain : (((claims.run first).credit bitmap' 3 1).run [.close ⟨4, 0, 0⟩]).status ⟨4, 0, 0⟩
        = .closed := by
      rw [hclose]
      rfl
    exact (hrefused ⟨4, 0, 0⟩).2.1.trans (congrArg Except.error (refusalAgain_of_closed hagain))

end

end Claims

end Surety
