import Surety.Proofs.Settlement.Step
import Surety.Proofs.Update

/-!
# Settlement operations in place

An operation on a settlement makes several writes to one state: a claim sets a bit and then two
counters, a plan is counted and then its rent is noted.  Here every write stands at its own place in
the program.  All the same no operation stops halfway: whatever can be refused is refused before the
first write.

* `Settlement.recordInPlace`, `Claims.acceptInPlace` and `Claims.closeInPlace` are the operations as
  programs; what is recorded for a settlement is recorded for its claims through `onSettlement`.
* `exec_performInPlace` says that each of them is a transaction, and `runInPlace_eq` that a run of
  them has the answers and the final state of `Claims.answers` and `Claims.run`.
* `accept_of_planned` says why the bit of a planned admission can be set: planning and setting look
  at the same bit of the same byte.
* `Claims.Credited` is the frame of an admission, one bit and two counters.
* `admission_all_or_nothing` is the result for a single claim.
-/

namespace Surety

namespace Settlement

/-- Count a plan, then note the collector and the rent of an account that it splits off. -/
def recordInPlace (plan : FundingPlan) : Update Settlement Unit := do
  let sum := addChecked (← get).lamportsFunded plan.lamports
  let funded ← Update.orThrow sum (.arithmeticOverflow .lamportsFunded)
  modify fun s => { s with lamportsFunded := funded }
  match plan with
  | .split _ _ _ _ collector amount =>
      modify fun s => { s with splitRentCollector := some collector }
      modify fun s => { s with splitRentAmount := amount }
  | _ => return ()

theorem exec_recordInPlace (s : Settlement) (plan : FundingPlan) :
    (recordInPlace plan).exec s
      = Update.commit s ((s.recordFunding plan).map fun next => ((), next)) := by
  unfold recordInPlace recordFunding
  simp only [Update.exec_bind, Update.exec_get, Update.exec_orThrow]
  cases addChecked s.lamportsFunded plan.lamports with
  | none => rfl
  | some funded => cases plan <;> rfl

end Settlement

namespace Claims

/-! ## The operations -/

/-- Run a program on the settlement of the state. -/
def onSettlement {α : Type} (update : Update Settlement α) : Update Claims α :=
  ExceptT.mk fun claims =>
    let (answer, settlement) := update.exec claims.settlement
    (answer, { claims with settlement := settlement })

@[simp] theorem exec_onSettlement {α : Type} (update : Update Settlement α) (claims : Claims) :
    (onSettlement update).exec claims = ((update.exec claims.settlement).1,
      { claims with settlement := (update.exec claims.settlement).2 }) := rfl

/-- Set the bit of a record in the bitmap of the state. -/
def markInPlace (index : UInt64) : Update Claims Unit := do
  let bitmap ← Update.need (← get).openBitmap
  let bitmap ← Update.need (bitmap.trySet index)
  modify fun claims => { claims with bitmap := some bitmap }

/-- Plan an admission, then set the bit of its leaf and the two counters one after another. -/
def acceptInPlace (request : ClaimRequest) (clock : Clock) : Update Claims ClaimAdmission := do
  let admission ← Update.need ((← get).planAdmission request clock)
  markInPlace admission.index
  onSettlement (modify fun s => { s with lamportsClaimed := admission.lamportsClaimed })
  onSettlement (modify fun s => { s with merkleNodesClaimed := admission.merkleNodesClaimed })
  return admission

/-- Record a plan for the settlement unless it is closed. -/
def recordInPlace (plan : FundingPlan) : Update Claims Unit := do
  let _ ← Update.need (← get).openBitmap
  onSettlement (Settlement.recordInPlace plan)

/-- Drop the bitmap of an expired settlement, then report what is left. -/
def closeInPlace (clock : Clock) : Update Claims CloseReport := do
  let _ ← Update.need (← get).openBitmap
  let s := (← get).settlement
  if s.status clock ≠ .expired then
    throw (.settlementNotExpired s.claimableUntilEpoch clock.epoch)
  modify fun claims => { claims with bitmap := none }
  return (← get).closeReport

/-- An operation as a program over the state. -/
def performInPlace : Operation → Update Claims Outcome
  | .record plan => do
      recordInPlace plan
      return .recorded
  | .accept request clock => return .admitted (← acceptInPlace request clock)
  | .close clock => return .closed (← closeInPlace clock)

/-- The answers of operations on one state, and the state that they leave. -/
def runInPlace (claims : Claims) (operations : List Operation) : List (Result Outcome) × Claims :=
  Update.execAll performInPlace claims operations

/-! ## Transactions -/

theorem commit_perform (claims : Claims) (operation : Operation) :
    Update.commit claims (claims.perform operation)
      = ((claims.perform operation).map (·.1), claims.after operation) := by
  unfold after Update.commit
  cases claims.perform operation <;> rfl

section

variable {claims : Claims} {request : ClaimRequest} {clock : Clock} {admission : ClaimAdmission}

theorem accept_of_refused {e : Error} (h : claims.planAdmission request clock = .error e) :
    claims.accept request clock = .error e := by
  unfold accept
  rw [h]
  rfl

/-- A planned admission is not refused afterwards: its bit was read as off, so it can be set. -/
theorem accept_of_planned (h : claims.planAdmission request clock = .ok admission) :
    ∃ bitmap bitmap', claims.bitmap = some bitmap ∧ bitmap.trySet request.index = .ok bitmap' ∧
      admission.index = request.index ∧
      claims.accept request clock = .ok (admission,
        claims.credit bitmap' admission.lamportsClaimed admission.merkleNodesClaimed) := by
  obtain ⟨bitmap, lamports, nodes, hopen, hwindow, hproof, hfree, hcount, rfl⟩ :=
    planAdmission_eq_ok_iff.1 h
  obtain ⟨bitmap', hset⟩ := ClaimBitmap.exists_trySet hfree
  refine ⟨bitmap, bitmap', hopen, hset, rfl, ?_⟩
  exact accept_eq_ok_iff.2
    ⟨bitmap, bitmap', lamports, nodes, hopen, hwindow, hproof, hset, hcount, rfl, rfl⟩

theorem exec_acceptInPlace (claims : Claims) (request : ClaimRequest) (clock : Clock) :
    (acceptInPlace request clock).exec claims
      = Update.commit claims (claims.accept request clock) := by
  unfold acceptInPlace
  simp only [Update.exec_bind, Update.exec_get, Update.exec_need]
  cases hplan : claims.planAdmission request clock with
  | error e => rw [accept_of_refused hplan, Update.commit]
  | ok admission =>
      obtain ⟨bitmap, bitmap', hopen, hset, hindex, haccept⟩ := accept_of_planned hplan
      rw [haccept]
      simp [markInPlace, openBitmap, hopen, hindex, hset, Update.commit, credit]

theorem exec_recordInPlace (claims : Claims) (plan : FundingPlan) :
    (recordInPlace plan).exec claims
      = Update.commit claims ((claims.recordFunding plan).map fun next => ((), next)) := by
  unfold recordInPlace recordFunding
  simp only [Update.exec_bind, Update.exec_get, Update.exec_need]
  cases claims.openBitmap with
  | error e => rfl
  | ok bitmap =>
      dsimp only
      rw [exec_onSettlement, Settlement.exec_recordInPlace]
      cases claims.settlement.recordFunding plan <;> rfl

theorem exec_closeInPlace (claims : Claims) (clock : Clock) :
    (closeInPlace clock).exec claims = Update.commit claims (claims.close clock) := by
  unfold closeInPlace close
  simp only [Update.exec_bind, Update.exec_get, Update.exec_need]
  cases claims.openBitmap with
  | error e => rfl
  | ok bitmap =>
      dsimp only
      by_cases hexpired : claims.settlement.status clock = .expired
      · rw [if_neg (not_not.2 hexpired), if_pos hexpired]
        rfl
      · rw [if_pos hexpired, if_neg hexpired, Update.exec_bind, Update.exec_throw, Update.commit]

/-- An operation that writes in place is a transaction: it answers as the operation does, and a
refused one has written nothing. -/
theorem exec_performInPlace (claims : Claims) (operation : Operation) :
    (performInPlace operation).exec claims
      = ((claims.perform operation).map (·.1), claims.after operation) := by
  rw [← commit_perform]
  cases operation with
  | record plan =>
      rw [performInPlace, Update.exec_bind, exec_recordInPlace, perform]
      cases claims.recordFunding plan <;> rfl
  | accept request clock =>
      rw [performInPlace, Update.exec_bind, exec_acceptInPlace, perform]
      cases claims.accept request clock <;> rfl
  | close clock =>
      rw [performInPlace, Update.exec_bind, exec_closeInPlace, perform]
      cases claims.close clock <;> rfl

/-- A run of operations that write in place is a run of transactions. -/
theorem runInPlace_eq (claims : Claims) (operations : List Operation) :
    claims.runInPlace operations = (claims.answers operations, claims.run operations) := by
  induction operations generalizing claims with
  | nil => rfl
  | cons operation rest ih =>
      have hrest := ih (claims.after operation)
      rw [runInPlace] at hrest ⊢
      simp only [Update.execAll, exec_performInPlace, hrest]
      rfl

/-! ## What an admission changes -/

/-- The state after an admission differs from the one before in the bit of the admitted leaf, which
was off and is on, and in the two counters, which are those of the admission. -/
structure Credited (before after : Claims) (admission : ClaimAdmission) : Prop where
  address_eq : after.address = before.address
  settlement_eq : after.settlement =
    { before.settlement with
      lamportsClaimed := admission.lamportsClaimed
      merkleNodesClaimed := admission.merkleNodesClaimed }
  was_off : before.isClaimed admission.index = .ok false
  is_on : after.isClaimed admission.index = .ok true
  /-- no byte is added or removed, and no bit but one of any byte changes -/
  bitmap_eq : ∃ bitmap bitmap', before.bitmap = some bitmap ∧ after.bitmap = some bitmap' ∧
    bitmap'.maxRecords = bitmap.maxRecords ∧ bitmap'.data.size = bitmap.data.size ∧
    ∀ position, position ≠ admission.index.toNat →
      Bitmap.bit bitmap'.data position = Bitmap.bit bitmap.data position

theorem credited_of_trySet {bitmap bitmap' : ClaimBitmap} (hopen : claims.bitmap = some bitmap)
    (hset : bitmap.trySet admission.index = .ok bitmap') :
    Credited claims
      (claims.credit bitmap' admission.lamportsClaimed admission.merkleNodesClaimed) admission := by
  obtain ⟨hfree, hrecords, hbit⟩ := ClaimBitmap.trySet_eq_ok_iff.1 hset
  refine ⟨rfl, rfl, isClaimed_eq_ok_iff.2 ⟨bitmap, hopen, hfree⟩,
    ClaimBitmap.get_self_of_trySet hset, bitmap, bitmap', hopen, rfl, hrecords, ?_, ?_⟩
  · rw [bitmap'.size_eq, bitmap.size_eq, hrecords]
  · intro position hother
    rw [hbit]
    simp [hother]

end

/-- Admitting a claim in place answers exactly what planning answers.  A refusal leaves the state as
it was; an admission is that of the requested leaf and changes one bit, which was off, and two
counters. -/
theorem admission_all_or_nothing (claims : Claims) (request : ClaimRequest) (clock : Clock) :
    ∃ after, (acceptInPlace request clock).exec claims
        = (claims.planAdmission request clock, after) ∧
      match claims.planAdmission request clock with
      | .error e => after = claims ∧ claims.accept request clock = .error e
      | .ok admission => admission.index = request.index ∧ Credited claims after admission ∧
          claims.accept request clock = .ok (admission, after) := by
  rw [exec_acceptInPlace]
  cases hplan : claims.planAdmission request clock with
  | error e =>
      have hrefused := accept_of_refused hplan
      exact ⟨claims, by rw [hrefused, Update.commit], rfl, hrefused⟩
  | ok admission =>
      obtain ⟨bitmap, bitmap', hopen, hset, hindex, haccept⟩ := accept_of_planned hplan
      rw [← hindex] at hset
      exact ⟨_, by rw [haccept, Update.commit], hindex, credited_of_trySet hopen hset, haccept⟩

end Claims

end Surety
