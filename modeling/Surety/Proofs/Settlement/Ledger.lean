import Mathlib.Algebra.GroupWithZero.Nat
import Surety.Proofs.Settlement.InPlace

/-!
# The books of a settlement

What has been admitted and recorded in a run, added up over unbounded numbers, is what the counters
of the settlement show; the counters stay within their limits; and the bitmap marks exactly the
admitted leaves.

* `Claims.Balanced` is the invariant, between a state and what happened before it.
* `balanced_after` keeps it through one operation, `balanced_run` through a whole run.
* `counters_of_run` is the result for a settlement that was just created, also for operations that
  write in place.

The invariant says nothing about who is paid; see `Surety.Proofs.Settlement.Authenticity`.
-/

namespace Surety

namespace Settlement

/-- A new settlement has the limits and the root of its terms, and all counters at zero. -/
theorem fields_of_create {terms : SettlementTerms} {config : Config} {settlement : Settlement}
    (h : create terms config = .ok settlement) :
    settlement.merkleRoot = terms.merkleRoot ∧
      settlement.maxTotalClaim = terms.maxTotalClaim ∧
      settlement.maxMerkleNodes = terms.maxMerkleNodes ∧
      settlement.lamportsFunded = 0 ∧ settlement.lamportsClaimed = 0 ∧
      settlement.merkleNodesClaimed = 0 := by
  unfold create at h
  split at h
  · cases h
  · cases h
    exact ⟨rfl, rfl, rfl, rfl, rfl, rfl⟩

theorem unclaimedLamports_toNat {s : Settlement} (h : s.lamportsClaimed ≤ s.lamportsFunded) :
    s.lamportsClaimed.toNat + s.unclaimedLamports.toNat = s.lamportsFunded.toNat := by
  rw [UInt64.le_iff_toNat_le] at h
  rw [unclaimedLamports, subSaturating_toNat]
  omega

end Settlement

namespace Claims

theorem start_eq_ok {settlement : Settlement} {config : Config} {claims : Claims}
    (h : start settlement config = .ok claims) :
    claims.settlement = settlement ∧ ∃ bitmap, claims.bitmap = some bitmap ∧
      ClaimBitmap.empty settlement.maxMerkleNodes = .ok bitmap := by
  unfold start at h
  split at h
  · cases h
  · rename_i bitmap hempty
    cases h
    exact ⟨rfl, bitmap, rfl, hempty⟩

/-- The counters and the bitmap of a state account for the admissions and the recorded plans
before it. -/
structure Balanced (claims : Claims) (granted : List ClaimAdmission) (plans : List FundingPlan) :
    Prop where
  claimed_le_total : claims.settlement.lamportsClaimed ≤ claims.settlement.maxTotalClaim
  claimed_le_funded : claims.settlement.lamportsClaimed ≤ claims.settlement.lamportsFunded
  nodes_le_max : claims.settlement.merkleNodesClaimed ≤ claims.settlement.maxMerkleNodes
  claimed_eq : claims.settlement.lamportsClaimed.toNat = (granted.map (·.amount.toNat)).sum
  funded_eq : claims.settlement.lamportsFunded.toNat = (plans.map (·.lamports.toNat)).sum
  nodes_eq : claims.settlement.merkleNodesClaimed.toNat = granted.length
  distinct : (granted.map (·.index)).Nodup
  in_range : ∀ bitmap, claims.bitmap = some bitmap →
    ∀ admission ∈ granted, admission.index < bitmap.maxRecords
  counted : ∀ bitmap, claims.bitmap = some bitmap → bitmap.countClaimed = granted.length
  marked : ∀ bitmap, claims.bitmap = some bitmap → ∀ position,
    Bitmap.bit bitmap.data position = true ↔
      ∃ admission ∈ granted, admission.index.toNat = position

/-- The books of a new settlement are balanced and empty. -/
theorem balanced_start {terms : SettlementTerms} {config claimsConfig : Config}
    {settlement : Settlement} {claims : Claims}
    (hcreate : Settlement.create terms config = .ok settlement)
    (hstart : start settlement claimsConfig = .ok claims) : Balanced claims [] [] := by
  obtain ⟨-, -, -, hfunded, hclaimed, hnodes⟩ := Settlement.fields_of_create hcreate
  obtain ⟨hsettlement, bitmap, hbitmap, hempty⟩ := start_eq_ok hstart
  obtain ⟨-, hcount, hoff⟩ := ClaimBitmap.empty_eq_ok hempty
  have hzero : ∀ n : UInt64, 0 ≤ n := fun n => UInt64.le_iff_toNat_le.2 (Nat.zero_le _)
  refine ⟨?_, ?_, ?_, ?_, ?_, ?_, List.nodup_nil, ?_, ?_, ?_⟩
  · rw [hsettlement, hclaimed]
    exact hzero _
  · rw [hsettlement, hclaimed]
    exact hzero _
  · rw [hsettlement, hnodes]
    exact hzero _
  · rw [hsettlement, hclaimed]
    rfl
  · rw [hsettlement, hfunded]
    rfl
  · rw [hsettlement, hnodes]
    rfl
  · intro _ _ admission hadmission
    cases hadmission
  · intro other hother
    obtain rfl := Option.some.inj (hbitmap.symm.trans hother)
    exact hcount
  · intro other hother position
    obtain rfl := Option.some.inj (hbitmap.symm.trans hother)
    simp [hoff]

/-- Recording a plan raises the funding by its lamports. -/
theorem Balanced.record {claims : Claims} {granted : List ClaimAdmission}
    {plans : List FundingPlan} {plan : FundingPlan} {settlement : Settlement}
    (h : Balanced claims granted plans)
    (hfunded : claims.settlement.recordFunding plan = .ok settlement) :
    Balanced { claims with settlement := settlement } granted (plans ++ [plan]) := by
  have hsum := (Settlement.recordFunding_eq_ok_iff.1 hfunded).1
  have hconstants := Settlement.constants_of_recordFunding hfunded
  obtain ⟨-, htotal, hmax, -⟩ := Settlement.limits_of_constants hconstants
  obtain ⟨hclaimed, hnodes⟩ := Settlement.claimed_of_recordFunding hfunded
  have hle := UInt64.le_iff_toNat_le.1 h.claimed_le_funded
  refine ⟨?_, ?_, ?_, ?_, ?_, ?_, h.distinct, h.in_range, h.counted, h.marked⟩
  · simpa only [hclaimed, htotal] using h.claimed_le_total
  · rw [UInt64.le_iff_toNat_le]
    dsimp only
    rw [hclaimed]
    omega
  · simpa only [hnodes, hmax] using h.nodes_le_max
  · simpa only [hclaimed] using h.claimed_eq
  · have hplans := h.funded_eq
    simp only [List.map_append, List.sum_append, List.map_singleton, List.sum_singleton]
    omega
  · simpa only [hnodes] using h.nodes_eq

/-- Admitting a claim raises the counters by it and marks its leaf, which was not marked before. -/
theorem Balanced.accept {claims : Claims} {granted : List ClaimAdmission}
    {plans : List FundingPlan} {request : ClaimRequest} {bitmap bitmap' : ClaimBitmap}
    {lamports nodes : UInt64} (h : Balanced claims granted plans)
    (hopen : claims.bitmap = some bitmap) (hset : bitmap.trySet request.index = .ok bitmap')
    (hcount : countClaim claims.settlement request.claim = .ok (lamports, nodes)) :
    Balanced (claims.credit bitmap' lamports nodes)
      (granted ++ [claims.admissionOf request lamports nodes]) plans := by
  obtain ⟨hlamports, hnodes, htotal, hmax, hfunded⟩ := countClaim_eq_ok_iff.1 hcount
  obtain ⟨hfree, hrecords, hbit⟩ := ClaimBitmap.trySet_eq_ok_iff.1 hset
  obtain ⟨hrange, hoff⟩ := ClaimBitmap.get_eq_ok_iff.1 hfree
  refine ⟨htotal, hfunded, hmax, ?_, h.funded_eq, ?_, ?_, ?_, ?_, ?_⟩
  · have hclaimed := h.claimed_eq
    change lamports.toNat = _
    simp only [List.map_append, List.sum_append, List.map_singleton, List.sum_singleton]
    change lamports.toNat = _ + request.claim.toNat
    omega
  · have hgranted := h.nodes_eq
    change nodes.toNat = _
    rw [List.length_append, List.length_singleton]
    omega
  · -- an index that was granted before is marked, and this one was not
    rw [List.map_append, List.nodup_append]
    refine ⟨h.distinct, by simp, ?_⟩
    intro index hindex other hother heq
    obtain ⟨admission, hadmission, rfl⟩ := List.mem_map.1 hindex
    have hsame : admission.index = request.index := by
      rw [heq]
      simpa [admissionOf] using hother
    have hon := (h.marked bitmap hopen request.index.toNat).2
      ⟨admission, hadmission, by rw [hsame]⟩
    rw [hoff] at hon
    cases hon
  · intro other hother admission hadmission
    obtain rfl := Option.some.inj (show some bitmap' = some other from hother)
    rw [hrecords]
    rcases List.mem_append.1 hadmission with hadmission | hadmission
    · exact h.in_range bitmap hopen admission hadmission
    · rw [List.mem_singleton.1 hadmission]
      exact hrange
  · intro other hother
    obtain rfl := Option.some.inj (show some bitmap' = some other from hother)
    rw [ClaimBitmap.countClaimed_of_trySet hset, h.counted bitmap hopen]
    simp
  · intro other hother position
    obtain rfl := Option.some.inj (show some bitmap' = some other from hother)
    rw [hbit, Bool.or_eq_true, h.marked bitmap hopen, decide_eq_true_eq]
    constructor
    · rintro (⟨admission, hadmission, heq⟩ | heq)
      · exact ⟨admission, List.mem_append_left _ hadmission, heq⟩
      · exact ⟨_, List.mem_append_right _ (List.mem_singleton_self _), heq.symm⟩
    · rintro ⟨admission, hadmission, heq⟩
      rcases List.mem_append.1 hadmission with hadmission | hadmission
      · exact .inl ⟨admission, hadmission, heq⟩
      · rw [List.mem_singleton.1 hadmission] at heq
        exact .inr heq.symm

/-- Closing changes no counter. -/
theorem Balanced.close {claims : Claims} {granted : List ClaimAdmission}
    {plans : List FundingPlan} (h : Balanced claims granted plans) :
    Balanced { claims with bitmap := none } granted plans where
  claimed_le_total := h.claimed_le_total
  claimed_le_funded := h.claimed_le_funded
  nodes_le_max := h.nodes_le_max
  claimed_eq := h.claimed_eq
  funded_eq := h.funded_eq
  nodes_eq := h.nodes_eq
  distinct := h.distinct
  in_range := fun _ hnone => by cases hnone
  counted := fun _ hnone => by cases hnone
  marked := fun _ hnone => by cases hnone

/-- An operation, successful or not, keeps the books balanced. -/
theorem balanced_after {claims : Claims} {granted : List ClaimAdmission}
    {plans : List FundingPlan} (h : Balanced claims granted plans) (operation : Operation) :
    Balanced (claims.after operation)
      (granted ++ ((grant? (operation, (claims.perform operation).map (·.1))).toList.map (·.2)))
      (plans ++ (recordedPlan? (operation, (claims.perform operation).map (·.1))).toList) := by
  rcases perform_cases claims operation with
    ⟨e, hresult, hafter⟩ | ⟨outcome, claims', hresult, hafter, hstep⟩
  · rw [hresult, hafter]
    cases operation <;> simpa [Except.map, grant?, recordedPlan?] using h
  · rw [hresult, hafter]
    cases hstep with
    | record hopen hfunded => simpa [Except.map, grant?, recordedPlan?] using h.record hfunded
    | accept hopen hwindow hproof hset hcount =>
        simpa [Except.map, grant?, recordedPlan?, credit] using h.accept hopen hset hcount
    | close => simpa [Except.map, grant?, recordedPlan?] using h.close

/-- A run keeps the books balanced. -/
theorem balanced_run {claims : Claims} {granted : List ClaimAdmission} {plans : List FundingPlan}
    (h : Balanced claims granted plans) (operations : List Operation) :
    Balanced (claims.run operations) (granted ++ (claims.grants operations).map (·.2))
      (plans ++ claims.recordedPlans operations) := by
  induction operations generalizing claims granted plans with
  | nil => simpa [run, grants, recordedPlans, events] using h
  | cons operation rest ih =>
      have hrest := ih (balanced_after h operation)
      rw [grants_cons, recordedPlans_cons, List.map_append, ← List.append_assoc,
        ← List.append_assoc]
      exact hrest

/-- The claimed leaves of an open settlement are the admitted ones. -/
theorem Balanced.isClaimed_iff {claims : Claims} {granted : List ClaimAdmission}
    {plans : List FundingPlan} {bitmap : ClaimBitmap} (h : Balanced claims granted plans)
    (hopen : claims.bitmap = some bitmap) (index : UInt64) :
    claims.isClaimed index = .ok true ↔ index ∈ granted.map (·.index) := by
  have hget : claims.isClaimed index = bitmap.get index := by
    rw [isClaimed, openBitmap, hopen]
  rw [hget, ClaimBitmap.get_eq_ok_iff, h.marked bitmap hopen, List.mem_map]
  constructor
  · rintro ⟨-, admission, hadmission, heq⟩
    exact ⟨admission, hadmission, UInt64.toNat_inj.1 heq⟩
  · rintro ⟨admission, hadmission, rfl⟩
    exact ⟨h.in_range bitmap hopen admission hadmission, admission, hadmission, rfl⟩

/-- In every state that a new settlement can reach, the counters are the exact sums of what was
admitted and recorded and lie within their limits; while the settlement is open, the claimed leaves
are the admitted ones and are as many as were counted; and a closing report repeats the counters and
splits what was funded into what was claimed and what was not.  Operations that write in place reach
the same state with the same answers. -/
theorem counters_of_run {terms : SettlementTerms} {config claimsConfig : Config}
    {settlement : Settlement} {claims : Claims}
    (hcreate : Settlement.create terms config = .ok settlement)
    (hstart : start settlement claimsConfig = .ok claims) (operations : List Operation) :
    let state := claims.run operations
    let admitted := (claims.grants operations).map (·.2)
    claims.runInPlace operations = (claims.answers operations, state) ∧
    (state.settlement.maxTotalClaim = terms.maxTotalClaim ∧
      state.settlement.maxMerkleNodes = terms.maxMerkleNodes) ∧
    state.settlement.lamportsClaimed ≤ state.settlement.maxTotalClaim ∧
    state.settlement.lamportsClaimed ≤ state.settlement.lamportsFunded ∧
    state.settlement.merkleNodesClaimed ≤ state.settlement.maxMerkleNodes ∧
    state.settlement.lamportsClaimed.toNat = (admitted.map (·.amount.toNat)).sum ∧
    state.settlement.lamportsFunded.toNat
      = ((claims.recordedPlans operations).map (·.lamports.toNat)).sum ∧
    state.settlement.merkleNodesClaimed.toNat = admitted.length ∧
    (∀ bitmap, state.bitmap = some bitmap →
      (∀ index, state.isClaimed index = .ok true ↔ index ∈ admitted.map (·.index)) ∧
        bitmap.countClaimed = state.settlement.merkleNodesClaimed.toNat) ∧
    ∀ clock report closed, state.close clock = .ok (report, closed) →
      report.lamportsFunded = state.settlement.lamportsFunded ∧
        report.lamportsClaimed = state.settlement.lamportsClaimed ∧
        report.merkleNodesClaimed = state.settlement.merkleNodesClaimed ∧
        report.lamportsClaimed.toNat + report.lamportsUnclaimed.toNat
          = report.lamportsFunded.toNat := by
  intro state admitted
  have hbalanced : Balanced state admitted (claims.recordedPlans operations) :=
    balanced_run (balanced_start hcreate hstart) operations
  obtain ⟨-, htotal, hmax, -⟩ := Settlement.fields_of_create hcreate
  obtain ⟨hsettlement, -⟩ := start_eq_ok hstart
  have hconstants := (run_constants claims operations).2
  rw [hsettlement] at hconstants
  obtain ⟨-, hsameTotal, hsameMax, -⟩ := Settlement.limits_of_constants hconstants
  refine ⟨runInPlace_eq claims operations, ⟨hsameTotal.trans htotal, hsameMax.trans hmax⟩,
    hbalanced.claimed_le_total, hbalanced.claimed_le_funded, hbalanced.nodes_le_max,
    hbalanced.claimed_eq, hbalanced.funded_eq, hbalanced.nodes_eq, ?_, ?_⟩
  · intro bitmap hopen
    refine ⟨fun index => hbalanced.isClaimed_iff hopen index, ?_⟩
    rw [hbalanced.counted bitmap hopen, hbalanced.nodes_eq]
  · intro clock report closed hclose
    obtain ⟨_, -, -, rfl, -⟩ := close_eq_ok_iff.1 hclose
    exact ⟨rfl, rfl, rfl, Settlement.unclaimedLamports_toNat hbalanced.claimed_le_funded⟩

/-- A plan is recorded, a second one would leave 64 bits, and a leaf is claimed.  Closing the settlement
then leaves what was not claimed. -/
theorem counters_of_claimed_and_closed_run :
    let r : Merkle.IndexedClaimRecord := ⟨Bytes32.zero, Bytes32.zero, 3, 0, none⟩
    let request := ClaimRequest.ofRecord r
    let terms : SettlementTerms := ⟨Bytes32.zero, r.leaf, 10, 2, 0, 0, Bytes32.zero⟩
    let config : Config := ⟨Bytes32.zero, Bytes32.zero, 3, 0, 3, 0⟩
    let plan (lamports : UInt64) : FundingPlan :=
      .wholeAccount Bytes32.zero Bytes32.zero lamports
    let operations : List Operation :=
      [.record (plan 7), .record (plan 18446744073709551615), .accept request ⟨0, 0, 0⟩]
    ∃ settlement claims bitmap report closed, Settlement.create terms config = .ok settlement ∧
      start settlement config = .ok claims ∧
      claims.recordedPlans operations = [plan 7] ∧
      (claims.grants operations).map (·.2.amount) = [3] ∧
      (claims.run operations).bitmap = some bitmap ∧
      (claims.run operations).isClaimed 0 = .ok true ∧ bitmap.countClaimed = 1 ∧
      (claims.run operations).close ⟨4, 0, 0⟩ = .ok (report, closed) ∧
      report.lamportsFunded.toNat = 7 ∧ report.lamportsClaimed.toNat = 3 ∧
      report.lamportsUnclaimed.toNat = 4 := by
  intro r request terms config plan operations
  obtain ⟨settlement, hcreate, hroot, hmax, hopened, hexpired, hfunded, hcount⟩ :
      ∃ settlement, Settlement.create terms config = .ok settlement ∧
        settlement.merkleRoot = r.leaf ∧ settlement.maxMerkleNodes = 2 ∧
        settlement.status ⟨0, 0, 0⟩ = .opened ∧ settlement.status ⟨4, 0, 0⟩ = .expired ∧
        settlement.recordFunding (plan 7) = .ok { settlement with lamportsFunded := 7 } ∧
        countClaim { settlement with lamportsFunded := 7 } 3 = .ok (3, 1) :=
    ⟨_, rfl, rfl, rfl, rfl, rfl, rfl, rfl⟩
  let free : ClaimBitmap := ⟨2, #[0], by decide, by decide⟩
  let marked : ClaimBitmap := ⟨2, #[1], by decide, by decide⟩
  let claims : Claims := ⟨settlement.address config, settlement, some free⟩
  let funded : Claims := { claims with settlement := { settlement with lamportsFunded := 7 } }
  have hstart : start settlement config = .ok claims := by
    rw [start, hmax]
    rfl
  have hset : free.trySet 0 = .ok marked := by decide
  have hproof : Merkle.verifyProof request.leaf request.proof settlement.merkleRoot = true :=
    Merkle.verifyWithOrder_iff.2 hroot.symm
  -- the run operation by operation: recorded, refused, admitted
  have hrecord : Step claims (.record (plan 7)) .recorded funded := .record rfl hfunded
  have hrefused : funded.perform (.record (plan 18446744073709551615))
      = .error (.arithmeticOverflow .lamportsFunded) := by
    have hover : addChecked 7 18446744073709551615 = none := by decide
    simp [perform, recordFunding, openBitmap, Settlement.recordFunding, funded, claims, plan,
      FundingPlan.lamports, hover, Except.map]
  have haccept : Step funded (.accept request ⟨0, 0, 0⟩)
      (.admitted (funded.admissionOf request 3 1)) (funded.credit marked 3 1) :=
    .accept rfl hopened hproof hset hcount
  have hrun : claims.run operations = funded.credit marked 3 1 := by
    change ((claims.after _).after _).after _ = _
    rw [after_of_step hrecord, after_of_error hrefused, after_of_step haccept]
  have hevents : claims.events operations =
      [(.record (plan 7), .ok .recorded),
        (.record (plan 18446744073709551615), .error (.arithmeticOverflow .lamportsFunded)),
        (.accept request ⟨0, 0, 0⟩, .ok (.admitted (funded.admissionOf request 3 1)))] := by
    rw [events_of_step hrecord, events_of_error hrefused, events_of_step haccept]
    rfl
  have hplans : claims.recordedPlans operations = [plan 7] := by
    rw [recordedPlans, hevents]
    rfl
  have hgrants : claims.grants operations = [(request, funded.admissionOf request 3 1)] := by
    rw [grants, hevents]
    rfl
  have hbitmap : (claims.run operations).bitmap = some marked := by rw [hrun]; rfl
  have hclose : (claims.run operations).close ⟨4, 0, 0⟩
      = .ok ((claims.run operations).closeReport, { claims.run operations with bitmap := none }) :=
    close_eq_ok_iff.2 ⟨marked, hbitmap, by rw [hrun]; exact hexpired, rfl, rfl⟩
  obtain ⟨-, -, -, -, -, hlamports, hplanned, hnodes, hleaves, hreport⟩ :=
    counters_of_run hcreate hstart operations
  rw [hgrants] at hlamports hnodes hleaves
  rw [hplans] at hplanned
  obtain ⟨hclaimed, hcounted⟩ := hleaves marked hbitmap
  obtain ⟨hreportFunded, hreportClaimed, -, hsplit⟩ := hreport _ _ _ hclose
  rw [hreportFunded, hreportClaimed, hplanned, hlamports] at hsplit
  refine ⟨settlement, claims, marked, _, _, hcreate, hstart, hplans, ?_, hbitmap, ?_, ?_, hclose,
    ?_, ?_, ?_⟩
  · rw [hgrants]
    rfl
  · exact (hclaimed 0).2 (List.mem_singleton_self 0)
  · rw [hcounted, hnodes]
    rfl
  · rw [hreportFunded, hplanned]
    rfl
  · rw [hreportClaimed, hlamports]
    rfl
  · exact Nat.add_left_cancel hsplit

end Claims

end Surety
