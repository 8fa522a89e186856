import Mathlib.Tactic.Common
import Surety.Proofs.Bitmap.Bit
import Surety.Settlement.Run

/-!
# What an operation on a settlement does

`Claims.Step` lists the three ways in which an operation can succeed, with every condition that is
checked and the state afterwards; `perform_eq_ok_iff` says that these are all.  What holds of every
run is proved from this list, and nowhere else is an operation taken apart.

* `planAdmission_eq` and `countClaim_eq_ok_iff` open the checks of a claim in their order.
* `Claims.events` pairs the operations of a run with their answers; `grants`, `recordedPlans` and
  `closings` pick out the admitted claims, the recorded plans and the closing reports.
* `run_of_step` carries what every step keeps through a run; `run_constants` says what no run changes,
  and `isClosed_run_iff` when a run has closed the settlement.
-/

namespace Surety

/-! ## Funding -/

namespace Settlement

/-- The rent of an account that a plan splits off is noted; other plans note nothing. -/
def noteRent (s : Settlement) : FundingPlan → Settlement
  | .split _ _ _ _ collector amount =>
      { s with splitRentCollector := some collector, splitRentAmount := amount }
  | _ => s

theorem recordFunding_eq_ok_iff {s s' : Settlement} {plan : FundingPlan} :
    s.recordFunding plan = .ok s' ↔
      s.lamportsFunded.toNat + plan.lamports.toNat = s'.lamportsFunded.toNat ∧
        s' = { s.noteRent plan with lamportsFunded := s'.lamportsFunded } := by
  unfold recordFunding
  cases hsum : addChecked s.lamportsFunded plan.lamports with
  | none =>
      rw [addChecked_eq_none_iff] at hsum
      have hlt := s'.lamportsFunded.toNat_lt
      constructor
      · intro h
        cases h
      · rintro ⟨h, -⟩
        omega
  | some funded =>
      rw [addChecked_eq_some_iff] at hsum
      constructor
      · intro h
        cases plan <;> (cases h; exact ⟨hsum, rfl⟩)
      · rintro ⟨h, hs⟩
        have hfunded : funded = s'.lamportsFunded := UInt64.toNat_inj.1 (by omega)
        rw [hs, hfunded]
        cases plan <;> rfl

/-- A settlement with its counters and the noted rent taken away: what no operation changes. -/
def constants (s : Settlement) : Settlement :=
  { s with
    lamportsFunded := 0
    lamportsClaimed := 0
    merkleNodesClaimed := 0
    splitRentCollector := none
    splitRentAmount := 0 }

/-- The root, the limits and the window of a settlement are constant. -/
theorem limits_of_constants {s s' : Settlement} (h : s'.constants = s.constants) :
    s'.merkleRoot = s.merkleRoot ∧ s'.maxTotalClaim = s.maxTotalClaim ∧
      s'.maxMerkleNodes = s.maxMerkleNodes ∧ ∀ clock, s'.status clock = s.status clock := by
  cases s
  cases s'
  simp only [constants, Settlement.mk.injEq] at h
  obtain ⟨-, -, rfl, rfl, rfl, -, -, -, rfl, rfl, rfl, rfl, -⟩ := h
  exact ⟨rfl, rfl, rfl, fun _ => rfl⟩

theorem constants_of_recordFunding {s s' : Settlement} {plan : FundingPlan}
    (h : s.recordFunding plan = .ok s') : s'.constants = s.constants := by
  obtain ⟨-, hs⟩ := recordFunding_eq_ok_iff.1 h
  rw [hs]
  cases plan <;> rfl

theorem claimed_of_recordFunding {s s' : Settlement} {plan : FundingPlan}
    (h : s.recordFunding plan = .ok s') :
    s'.lamportsClaimed = s.lamportsClaimed ∧ s'.merkleNodesClaimed = s.merkleNodesClaimed := by
  obtain ⟨-, hs⟩ := recordFunding_eq_ok_iff.1 h
  rw [hs]
  cases plan <;> exact ⟨rfl, rfl⟩

/-- The claim window is open between its first slot and its last epoch. -/
theorem status_eq_opened_iff {s : Settlement} {clock : Clock} :
    s.status clock = .opened ↔
      s.claimableFromSlot ≤ clock.slot ∧ clock.epoch ≤ s.claimableUntilEpoch := by
  unfold status
  by_cases hepoch : s.claimableUntilEpoch < clock.epoch
  · simp [hepoch, UInt64.not_le.2 hepoch]
  · by_cases hslot : clock.slot < s.claimableFromSlot
    · simp [hepoch, hslot, UInt64.not_le.2 hslot]
    · simp [hepoch, hslot, UInt64.not_lt.1 hepoch, UInt64.not_lt.1 hslot]

/-- Closing is seen from the bitmap only. -/
theorem status_ne_closed {s : Settlement} {clock : Clock} : s.status clock ≠ .closed := by
  unfold status
  split
  · decide
  · split <;> decide

/-- The window has expired once its last epoch is over, whether it had begun or not. -/
theorem status_eq_expired_iff {s : Settlement} {clock : Clock} :
    s.status clock = .expired ↔ s.claimableUntilEpoch < clock.epoch := by
  unfold status
  by_cases hepoch : s.claimableUntilEpoch < clock.epoch
  · simp [hepoch]
  · by_cases hslot : clock.slot < s.claimableFromSlot
    · simp [hepoch, hslot]
    · simp [hepoch, hslot]

theorem checkClaimable_of_opened {s : Settlement} {clock : Clock}
    (h : s.status clock = .opened) : s.checkClaimable clock = .ok () := by
  rw [checkClaimable, h]

end Settlement

namespace Claims

/-! ## Claiming -/

theorem ite_limit_eq_ok_iff {α : Type} {limit amount : UInt64} {e : Error} {result : Result α}
    {value : α} :
    (if limit < amount then .error e else result) = .ok value ↔
      amount ≤ limit ∧ result = .ok value := by
  by_cases h : limit < amount
  · simp [h, UInt64.not_le.2 h]
  · simp [h, UInt64.not_lt.1 h]

theorem countClaim_eq_ok_iff {s : Settlement} {amount lamports nodes : UInt64} :
    countClaim s amount = .ok (lamports, nodes) ↔
      s.lamportsClaimed.toNat + amount.toNat = lamports.toNat ∧
      s.merkleNodesClaimed.toNat + 1 = nodes.toNat ∧
      lamports ≤ s.maxTotalClaim ∧ nodes ≤ s.maxMerkleNodes ∧ lamports ≤ s.lamportsFunded := by
  have hone : (1 : UInt64).toNat = 1 := rfl
  rw [← hone, ← addChecked_eq_some_iff, ← addChecked_eq_some_iff]
  unfold countClaim
  cases addChecked s.lamportsClaimed amount with
  | none => simp
  | some total =>
      cases addChecked s.merkleNodesClaimed 1 with
      | none => simp [ite_limit_eq_ok_iff]
      | some count =>
          simp only [ite_limit_eq_ok_iff, Except.ok.injEq, Prod.mk.injEq, Option.some.injEq]
          constructor
          · rintro ⟨htotal, hcount, hfunded, rfl, rfl⟩
            exact ⟨rfl, rfl, htotal, hcount, hfunded⟩
          · rintro ⟨rfl, rfl, htotal, hcount, hfunded⟩
            exact ⟨htotal, hcount, hfunded, rfl, rfl⟩

theorem isClaimed_eq_ok_iff {claims : Claims} {index : UInt64} {claimed : Bool} :
    claims.isClaimed index = .ok claimed ↔
      ∃ bitmap, claims.bitmap = some bitmap ∧ bitmap.get index = .ok claimed := by
  rw [isClaimed, openBitmap]
  cases claims.bitmap <;> simp

/-- The admission of a request, with the counters after it. -/
def admissionOf (claims : Claims) (request : ClaimRequest) (lamports nodes : UInt64) :
    ClaimAdmission where
  settlement := claims.address
  index := request.index
  stakeAuthority := request.stakeAuthority
  withdrawAuthority := request.withdrawAuthority
  amount := request.claim
  lamportsClaimed := lamports
  merkleNodesClaimed := nodes

/-- The state with other claimed leaves and the counters for them. -/
def credit (claims : Claims) (bitmap : ClaimBitmap) (lamports nodes : UInt64) : Claims :=
  { claims with
    bitmap := some bitmap
    settlement :=
      { claims.settlement with lamportsClaimed := lamports, merkleNodesClaimed := nodes } }

/-- The checks of a claim, one after another. -/
theorem planAdmission_eq (claims : Claims) (request : ClaimRequest) (clock : Clock) :
    claims.planAdmission request clock =
      match claims.bitmap with
      | none => .error .settlementClosed
      | some bitmap =>
          match claims.settlement.checkClaimable clock with
          | .error e => .error e
          | .ok () =>
              if Merkle.verifyProof request.leaf request.proof claims.settlement.merkleRoot then
                match bitmap.get request.index with
                | .error e => .error e
                | .ok true => .error (.alreadyClaimed request.index)
                | .ok false =>
                    match countClaim claims.settlement request.claim with
                    | .error e => .error e
                    | .ok (lamports, nodes) => .ok (claims.admissionOf request lamports nodes)
              else .error .verificationFailure := by
  unfold planAdmission openBitmap
  cases claims.bitmap with
  | none => rfl
  | some bitmap =>
      dsimp only [bind, Except.bind, pure, Except.pure]
      cases claims.settlement.checkClaimable clock with
      | error e => rfl
      | ok =>
          cases Merkle.verifyProof request.leaf request.proof claims.settlement.merkleRoot with
          | false => rfl
          | true =>
              cases bitmap.get request.index with
              | error e => rfl
              | ok claimed =>
                  cases claimed with
                  | true => rfl
                  | false =>
                      cases countClaim claims.settlement request.claim with
                      | error e => rfl
                      | ok counters => rfl

theorem planAdmission_eq_ok_iff {claims : Claims} {request : ClaimRequest} {clock : Clock}
    {admission : ClaimAdmission} :
    claims.planAdmission request clock = .ok admission ↔
      ∃ bitmap lamports nodes, claims.bitmap = some bitmap ∧
        claims.settlement.status clock = .opened ∧
        Merkle.verifyProof request.leaf request.proof claims.settlement.merkleRoot = true ∧
        bitmap.get request.index = .ok false ∧
        countClaim claims.settlement request.claim = .ok (lamports, nodes) ∧
        admission = claims.admissionOf request lamports nodes := by
  rw [planAdmission_eq]
  constructor
  · intro h
    split at h
    · cases h
    · rename_i bitmap hbitmap
      split at h
      · cases h
      · rename_i hclaimable
        have hopened : claims.settlement.status clock = .opened := by
          unfold Settlement.checkClaimable at hclaimable
          split at hclaimable
          · cases hclaimable
          · cases hclaimable
          · cases hclaimable
          · assumption
        split at h
        · rename_i hproof
          split at h
          · cases h
          · cases h
          · rename_i hfree
            split at h
            · cases h
            · rename_i lamports nodes hcount
              cases h
              exact ⟨bitmap, lamports, nodes, hbitmap, hopened, hproof, hfree, hcount, rfl⟩
        · cases h
  · rintro ⟨bitmap, lamports, nodes, hbitmap, hopened, hproof, hfree, hcount, rfl⟩
    rw [hbitmap, Settlement.checkClaimable_of_opened hopened]
    simp only [hproof, hfree, hcount, if_true]

/-! ## Steps -/

/-- What a successful operation checks, what it answers and the state after it. -/
inductive Step (claims : Claims) : Operation → Outcome → Claims → Prop
  | record {plan : FundingPlan} {bitmap : ClaimBitmap} {settlement : Settlement}
      (hopen : claims.bitmap = some bitmap)
      (hfunded : claims.settlement.recordFunding plan = .ok settlement) :
      Step claims (.record plan) .recorded { claims with settlement := settlement }
  | accept {request : ClaimRequest} {clock : Clock} {bitmap bitmap' : ClaimBitmap}
      {lamports nodes : UInt64} (hopen : claims.bitmap = some bitmap)
      (hwindow : claims.settlement.status clock = .opened)
      (hproof : Merkle.verifyProof request.leaf request.proof claims.settlement.merkleRoot = true)
      (hset : bitmap.trySet request.index = .ok bitmap')
      (hcount : countClaim claims.settlement request.claim = .ok (lamports, nodes)) :
      Step claims (.accept request clock) (.admitted (claims.admissionOf request lamports nodes))
        (claims.credit bitmap' lamports nodes)
  | close {clock : Clock} {bitmap : ClaimBitmap} (hopen : claims.bitmap = some bitmap)
      (hexpired : claims.settlement.status clock = .expired) :
      Step claims (.close clock) (.closed claims.closeReport) { claims with bitmap := none }

theorem recordFunding_eq_ok_iff {claims claims' : Claims} {plan : FundingPlan} :
    claims.recordFunding plan = .ok claims' ↔
      ∃ bitmap settlement, claims.bitmap = some bitmap ∧
        claims.settlement.recordFunding plan = .ok settlement ∧
        claims' = { claims with settlement := settlement } := by
  unfold recordFunding openBitmap
  cases hbitmap : claims.bitmap with
  | none => simp
  | some bitmap =>
      cases hfunded : claims.settlement.recordFunding plan with
      | error e => simp
      | ok settlement => simp [eq_comm]

theorem accept_eq_ok_iff {claims claims' : Claims} {request : ClaimRequest} {clock : Clock}
    {admission : ClaimAdmission} :
    claims.accept request clock = .ok (admission, claims') ↔
      ∃ bitmap bitmap' lamports nodes, claims.bitmap = some bitmap ∧
        claims.settlement.status clock = .opened ∧
        Merkle.verifyProof request.leaf request.proof claims.settlement.merkleRoot = true ∧
        bitmap.trySet request.index = .ok bitmap' ∧
        countClaim claims.settlement request.claim = .ok (lamports, nodes) ∧
        admission = claims.admissionOf request lamports nodes ∧
        claims' = claims.credit bitmap' lamports nodes := by
  constructor
  · intro h
    unfold accept at h
    cases hplan : claims.planAdmission request clock with
    | error e =>
        rw [hplan] at h
        cases h
    | ok planned =>
        obtain ⟨bitmap, lamports, nodes, hbitmap, hopened, hproof, hfree, hcount, rfl⟩ :=
          planAdmission_eq_ok_iff.1 hplan
        obtain ⟨bitmap', hset⟩ := ClaimBitmap.exists_trySet hfree
        rw [hplan] at h
        simp only [openBitmap, hbitmap, bind, Except.bind, pure, Except.pure] at h
        rw [show (claims.admissionOf request lamports nodes).index = request.index from rfl,
          hset] at h
        cases h
        exact ⟨bitmap, bitmap', lamports, nodes, hbitmap, hopened, hproof, hset, hcount, rfl, rfl⟩
  · -- a bit that can be set was read as off, so the planning has admitted the claim
    rintro ⟨bitmap, bitmap', lamports, nodes, hbitmap, hopened, hproof, hset, hcount, rfl, rfl⟩
    have hfree := (ClaimBitmap.trySet_eq_ok_iff.1 hset).1
    have hplan : claims.planAdmission request clock
        = .ok (claims.admissionOf request lamports nodes) :=
      planAdmission_eq_ok_iff.2
        ⟨bitmap, lamports, nodes, hbitmap, hopened, hproof, hfree, hcount, rfl⟩
    unfold accept
    rw [hplan]
    simp only [openBitmap, hbitmap, bind, Except.bind, pure, Except.pure]
    rw [show (claims.admissionOf request lamports nodes).index = request.index from rfl, hset]
    rfl

theorem close_eq_ok_iff {claims claims' : Claims} {clock : Clock} {report : CloseReport} :
    claims.close clock = .ok (report, claims') ↔
      ∃ bitmap, claims.bitmap = some bitmap ∧ claims.settlement.status clock = .expired ∧
        report = claims.closeReport ∧ claims' = { claims with bitmap := none } := by
  unfold close openBitmap
  cases hbitmap : claims.bitmap with
  | none => simp
  | some bitmap =>
      by_cases hexpired : claims.settlement.status clock = .expired
      · simp [hexpired, eq_comm]
      · simp [hexpired]

/-- An operation succeeds in the ways that `Step` lists and in no other. -/
theorem perform_eq_ok_iff {claims claims' : Claims} {operation : Operation} {outcome : Outcome} :
    claims.perform operation = .ok (outcome, claims') ↔ Step claims operation outcome claims' := by
  cases operation with
  | record plan =>
      constructor
      · intro h
        cases hresult : claims.recordFunding plan with
        | error e =>
            rw [perform, hresult] at h
            cases h
        | ok next =>
            rw [perform, hresult] at h
            cases h
            obtain ⟨bitmap, settlement, hopen, hfunded, rfl⟩ := recordFunding_eq_ok_iff.1 hresult
            exact .record hopen hfunded
      · intro h
        cases h with
        | record hopen hfunded =>
            rw [perform, recordFunding_eq_ok_iff.2 ⟨_, _, hopen, hfunded, rfl⟩]
            rfl
  | accept request clock =>
      constructor
      · intro h
        cases hresult : claims.accept request clock with
        | error e =>
            rw [perform, hresult] at h
            cases h
        | ok pair =>
            obtain ⟨admission, next⟩ := pair
            rw [perform, hresult] at h
            cases h
            obtain ⟨bitmap, bitmap', lamports, nodes, hopen, hwindow, hproof, hset, hcount, rfl,
              rfl⟩ := accept_eq_ok_iff.1 hresult
            exact .accept hopen hwindow hproof hset hcount
      · intro h
        cases h with
        | accept hopen hwindow hproof hset hcount =>
            rw [perform, accept_eq_ok_iff.2
              ⟨_, _, _, _, hopen, hwindow, hproof, hset, hcount, rfl, rfl⟩]
            rfl
  | close clock =>
      constructor
      · intro h
        cases hresult : claims.close clock with
        | error e =>
            rw [perform, hresult] at h
            cases h
        | ok pair =>
            obtain ⟨report, next⟩ := pair
            rw [perform, hresult] at h
            cases h
            obtain ⟨bitmap, hopen, hexpired, rfl, rfl⟩ := close_eq_ok_iff.1 hresult
            exact .close hopen hexpired
      · intro h
        cases h with
        | close hopen hexpired =>
            rw [perform, close_eq_ok_iff.2 ⟨_, hopen, hexpired, rfl, rfl⟩]
            rfl

theorem after_of_step {claims claims' : Claims} {operation : Operation} {outcome : Outcome}
    (h : Step claims operation outcome claims') : claims.after operation = claims' := by
  rw [after, perform_eq_ok_iff.2 h]

theorem after_of_error {claims : Claims} {operation : Operation} {e : Error}
    (h : claims.perform operation = .error e) : claims.after operation = claims := by
  rw [after, h]

/-- Within the window, a request with a right proof is told that its leaf was claimed. -/
theorem perform_accept_of_claimed {claims : Claims} {request : ClaimRequest} {clock : Clock}
    {bitmap : ClaimBitmap} (hopen : claims.bitmap = some bitmap)
    (hwindow : claims.settlement.status clock = .opened)
    (hproof : Merkle.verifyProof request.leaf request.proof claims.settlement.merkleRoot = true)
    (hclaimed : bitmap.get request.index = .ok true) :
    claims.perform (.accept request clock) = .error (.alreadyClaimed request.index) := by
  have hplan : claims.planAdmission request clock = .error (.alreadyClaimed request.index) := by
    rw [planAdmission_eq, hopen, Settlement.checkClaimable_of_opened hwindow]
    simp only [hproof, hclaimed, if_true]
  rw [perform, accept, hplan]
  rfl

/-- An operation is refused and changes nothing, or it takes one of the steps. -/
theorem perform_cases (claims : Claims) (operation : Operation) :
    (∃ e, claims.perform operation = .error e ∧ claims.after operation = claims) ∨
      ∃ outcome claims', claims.perform operation = .ok (outcome, claims') ∧
        claims.after operation = claims' ∧ Step claims operation outcome claims' := by
  cases hresult : claims.perform operation with
  | error e => exact .inl ⟨e, rfl, after_of_error hresult⟩
  | ok pair =>
      obtain ⟨outcome, claims'⟩ := pair
      have hstep := perform_eq_ok_iff.1 hresult
      exact .inr ⟨outcome, claims', rfl, after_of_step hstep, hstep⟩

/-- What every step keeps, every run keeps. -/
theorem run_of_step {Kept : Claims → Prop}
    (hstep : ∀ {claims claims' : Claims} {operation : Operation} {outcome : Outcome},
      Kept claims → Step claims operation outcome claims' → Kept claims')
    {claims : Claims} (h : Kept claims) (operations : List Operation) :
    Kept (claims.run operations) := by
  induction operations generalizing claims with
  | nil => exact h
  | cons operation rest ih =>
      refine @ih (claims.after operation) ?_
      rcases perform_cases claims operation with ⟨_, -, hafter⟩ | ⟨_, _, -, hafter, hdone⟩
      · rwa [hafter]
      · rw [hafter]
        exact hstep h hdone

theorem step_constants {claims claims' : Claims} {operation : Operation} {outcome : Outcome}
    (h : Step claims operation outcome claims') :
    claims'.address = claims.address ∧
      claims'.settlement.constants = claims.settlement.constants := by
  cases h with
  | record _ hfunded => exact ⟨rfl, Settlement.constants_of_recordFunding hfunded⟩
  | accept => exact ⟨rfl, rfl⟩
  | close => exact ⟨rfl, rfl⟩

/-- No run changes the address or anything of the settlement but the counters and the noted rent. -/
theorem run_constants (claims : Claims) (operations : List Operation) :
    (claims.run operations).address = claims.address ∧
      (claims.run operations).settlement.constants = claims.settlement.constants := by
  refine @run_of_step (fun state => state.address = claims.address ∧
    state.settlement.constants = claims.settlement.constants) ?_ claims ⟨rfl, rfl⟩ operations
  rintro state next operation outcome ⟨haddress, hconstants⟩ hstep
  obtain ⟨hsame, hkept⟩ := step_constants hstep
  exact ⟨hsame.trans haddress, hkept.trans hconstants⟩

/-! ## What happened in a run -/

/-- The operations of a run with their answers. -/
def events (claims : Claims) (operations : List Operation) : List (Operation × Result Outcome) :=
  operations.zip (claims.answers operations)

/-- The request and the admission of an event that admits a claim. -/
def grant? : Operation × Result Outcome → Option (ClaimRequest × ClaimAdmission)
  | (.accept request _, .ok (.admitted admission)) => some (request, admission)
  | _ => none

/-- The plan of an event that records one. -/
def recordedPlan? : Operation × Result Outcome → Option FundingPlan
  | (.record plan, .ok .recorded) => some plan
  | _ => none

/-- The requests that a run admits, with their admissions. -/
def grants (claims : Claims) (operations : List Operation) :
    List (ClaimRequest × ClaimAdmission) :=
  (claims.events operations).filterMap grant?

/-- The plans that a run records. -/
def recordedPlans (claims : Claims) (operations : List Operation) : List FundingPlan :=
  (claims.events operations).filterMap recordedPlan?

/-- The report of an event that closes the settlement. -/
def closing? : Operation × Result Outcome → Option CloseReport
  | (.close _, .ok (.closed report)) => some report
  | _ => none

/-- The reports of closing in a run. -/
def closings (claims : Claims) (operations : List Operation) : List CloseReport :=
  (claims.events operations).filterMap closing?

/-- The requests that a run submits, admitted or not. -/
def submitted (operations : List Operation) : List ClaimRequest :=
  operations.filterMap fun
    | .accept request _ => some request
    | _ => none

theorem events_of_step {claims next : Claims} {operation : Operation} {outcome : Outcome}
    (h : Step claims operation outcome next) (rest : List Operation) :
    claims.events (operation :: rest) = (operation, .ok outcome) :: next.events rest := by
  rw [events, answers, perform_eq_ok_iff.2 h, after_of_step h]
  rfl

theorem events_of_error {claims : Claims} {operation : Operation} {e : Error}
    (h : claims.perform operation = .error e) (rest : List Operation) :
    claims.events (operation :: rest) = (operation, .error e) :: claims.events rest := by
  rw [events, answers, h, after_of_error h]
  rfl

/-- What is picked out of a run is picked out of its first event and of the rest. -/
theorem filterMap_events_cons {α : Type} (pick : Operation × Result Outcome → Option α)
    (claims : Claims) (operation : Operation) (rest : List Operation) :
    (claims.events (operation :: rest)).filterMap pick
      = (pick (operation, (claims.perform operation).map (·.1))).toList
        ++ ((claims.after operation).events rest).filterMap pick := by
  change List.filterMap pick ((operation, (claims.perform operation).map (·.1))
    :: (claims.after operation).events rest) = _
  rw [List.filterMap_cons]
  cases pick (operation, (claims.perform operation).map (·.1)) with
  | none => rfl
  | some picked => rfl

theorem grants_cons (claims : Claims) (operation : Operation) (rest : List Operation) :
    claims.grants (operation :: rest)
      = (grant? (operation, (claims.perform operation).map (·.1))).toList
        ++ (claims.after operation).grants rest :=
  filterMap_events_cons grant? claims operation rest

theorem recordedPlans_cons (claims : Claims) (operation : Operation) (rest : List Operation) :
    claims.recordedPlans (operation :: rest)
      = (recordedPlan? (operation, (claims.perform operation).map (·.1))).toList
        ++ (claims.after operation).recordedPlans rest :=
  filterMap_events_cons recordedPlan? claims operation rest

/-- A settlement is closed when it was, or when closing it succeeded in the run. -/
theorem isClosed_run_iff (claims : Claims) (operations : List Operation) :
    (claims.run operations).isClosed = true ↔
      claims.isClosed = true ∨ claims.closings operations ≠ [] := by
  induction operations generalizing claims with
  | nil => simp [run, closings, events]
  | cons operation rest ih =>
      refine (ih (claims.after operation)).trans ?_
      rw [closings, closings, filterMap_events_cons]
      rcases perform_cases claims operation with
        ⟨e, hresult, hafter⟩ | ⟨outcome, next, hresult, hafter, hstep⟩
      · rw [hresult, hafter]
        cases operation <;> simp [Except.map, closing?]
      · rw [hresult, hafter]
        cases hstep with
        | record hopen => simp [closing?, isClosed, hopen]
        | accept hopen => simp [closing?, isClosed, credit, hopen]
        | close hopen => simp [Except.map, closing?, isClosed]

/-- A successful event of a run is a step from the state that the operations before it lead to. -/
theorem step_of_mem_events {claims : Claims} {operations : List Operation} {operation : Operation}
    {outcome : Outcome} (h : (operation, .ok outcome) ∈ claims.events operations) :
    ∃ before next, before ++ [operation] <+: operations ∧
      Step (claims.run before) operation outcome next := by
  induction operations generalizing claims with
  | nil => cases h
  | cons first rest ih =>
      change _ ∈ (first, (claims.perform first).map (·.1)) :: (claims.after first).events rest at h
      rcases List.mem_cons.1 h with hhead | hrest
      · obtain ⟨rfl, houtcome⟩ := Prod.mk.inj hhead
        rcases perform_cases claims operation with ⟨e, hresult, -⟩ | ⟨done, next, hresult, -, hstep⟩
        · rw [hresult] at houtcome
          cases houtcome
        · rw [hresult] at houtcome
          obtain rfl : outcome = done := Except.ok.inj houtcome
          exact ⟨[], next, List.prefix_append [operation] rest, hstep⟩
      · obtain ⟨before, next, hprefix, hstep⟩ := ih hrest
        exact ⟨first :: before, next, (List.cons_prefix_cons).2 ⟨rfl, hprefix⟩, hstep⟩

theorem grant?_eq_some_iff {operation : Operation} {result : Result Outcome}
    {request : ClaimRequest} {admission : ClaimAdmission} :
    grant? (operation, result) = some (request, admission) ↔
      ∃ clock, operation = .accept request clock ∧ result = .ok (.admitted admission) := by
  cases operation with
  | record => simp [grant?]
  | close => simp [grant?]
  | accept other clock =>
      cases result with
      | error e => simp [grant?]
      | ok outcome =>
          cases outcome with
          | recorded => simp [grant?]
          | admitted found => simp [grant?]
          | closed report => simp [grant?]

/-- A claim that a run admits is admitted by a step. -/
theorem step_of_mem_grants {claims : Claims} {operations : List Operation} {request : ClaimRequest}
    {admission : ClaimAdmission} (h : (request, admission) ∈ claims.grants operations) :
    ∃ clock before next, before ++ [.accept request clock] <+: operations ∧
      Step (claims.run before) (.accept request clock) (.admitted admission) next := by
  obtain ⟨⟨operation, result⟩, hevent, hgrant⟩ := List.mem_filterMap.1 h
  obtain ⟨clock, rfl, rfl⟩ := grant?_eq_some_iff.1 hgrant
  exact ⟨clock, step_of_mem_events hevent⟩

/-- In a run a settlement is closed, or it has the window that it had. -/
theorem status_run (claims : Claims) (operations : List Operation) (clock : Clock) :
    (claims.run operations).status clock =
      if (claims.run operations).isClosed then .closed else claims.settlement.status clock := by
  rw [status, (Settlement.limits_of_constants (run_constants claims operations).2).2.2.2 clock]

end Claims

end Surety
