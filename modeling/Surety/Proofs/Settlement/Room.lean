import Mathlib.Data.List.Nodup
import Mathlib.Data.List.Perm.Subperm
import Surety.Proofs.Settlement.InPlace
import Surety.Proofs.Settlement.Reload

/-!
# A free leaf leaves room

A claim is refused when its leaf was claimed, and after that also when as many claims were admitted as
there are leaves.  The second refusal never happens: the admitted leaves are different and in range, so
as long as one leaf is free, fewer were admitted than there are.  The counter therefore never leaves its
64 bits either.  A settlement that is put together by hand may well refuse so; one that is reached from
a new settlement does not.

* `Claims.OutOfLeaves` names the two refusals.
* `Balanced.room` is the counting argument.
* `free_of_outOfLeaves` says that only a claim for a free leaf gets as far as the counter.
* `never_out_of_leaves` is the result for a run.
-/

namespace Surety

namespace Claims

/-- The refusals of a claim for which no leaf is left. -/
inductive OutOfLeaves : Error → Prop
  | limit (requested limit : UInt64) :
      OutOfLeaves (.capacityExceeded .claimCount requested limit)
  | overflow : OutOfLeaves (.arithmeticOverflow .merkleNodesClaimed)

section

variable {claims : Claims} {request : ClaimRequest} {clock : Clock} {e : Error}

/-! ## Counting the admitted leaves -/

/-- The admitted leaves and one that is free are different leaves of the settlement, so there are at
most as many as it has. -/
theorem Balanced.room {granted : List ClaimAdmission} {plans : List FundingPlan}
    {bitmap : ClaimBitmap} {index : UInt64} (h : Balanced claims granted plans)
    (hopen : claims.bitmap = some bitmap)
    (hrecords : bitmap.maxRecords = claims.settlement.maxMerkleNodes)
    (hfree : bitmap.get index = .ok false) :
    claims.settlement.merkleNodesClaimed < claims.settlement.maxMerkleNodes := by
  obtain ⟨hrange, hoff⟩ := ClaimBitmap.get_eq_ok_iff.1 hfree
  have hnew : index ∉ granted.map (·.index) := by
    intro hmem
    obtain ⟨admission, hadmission, rfl⟩ := List.mem_map.1 hmem
    have hon := (h.marked bitmap hopen _).2 ⟨admission, hadmission, rfl⟩
    rw [hoff] at hon
    cases hon
  -- the admitted leaves and the free one, as positions in the row of bits
  have hdistinct : ((index :: granted.map (·.index)).map UInt64.toNat).Nodup :=
    (List.nodup_cons.2 ⟨hnew, h.distinct⟩).map fun _ _ => UInt64.toNat_inj.1
  have hbelow : (index :: granted.map (·.index)).map UInt64.toNat
      ⊆ List.range bitmap.maxRecords.toNat := by
    intro position hposition
    obtain ⟨leaf, hleaf, rfl⟩ := List.mem_map.1 hposition
    rw [List.mem_range, ← UInt64.lt_iff_toNat_lt]
    rcases List.mem_cons.1 hleaf with rfl | hleaf
    · exact hrange
    · obtain ⟨admission, hadmission, rfl⟩ := List.mem_map.1 hleaf
      exact h.in_range bitmap hopen admission hadmission
  have hcount := (List.subperm_of_subset hdistinct hbelow).length_le
  rw [List.length_map, List.length_cons, List.length_map, List.length_range, hrecords,
    ← h.nodes_eq] at hcount
  exact UInt64.lt_iff_toNat_lt.2 hcount

/-! ## Who gets as far as the counter -/

/-- Counting runs out of leaves only where the counter has reached the number of leaves. -/
theorem full_of_countClaim {s : Settlement} {amount : UInt64} (h : countClaim s amount = .error e)
    (hleaves : OutOfLeaves e) : s.maxMerkleNodes ≤ s.merkleNodesClaimed := by
  unfold countClaim at h
  split at h
  · cases h
    cases hleaves
  · split at h
    · cases h
      cases hleaves
    · split at h
      · -- the counter may overflow only above every number of leaves
        rename_i hover
        rw [addChecked_eq_none_iff] at hover
        have hmax := s.maxMerkleNodes.toNat_lt
        rw [UInt64.le_iff_toNat_le]
        change _ ≤ s.merkleNodesClaimed.toNat + 1 at hover
        omega
      · rename_i nodes hnodes
        rw [addChecked_eq_some_iff] at hnodes
        split at h
        · rename_i hfull
          rw [UInt64.lt_iff_toNat_lt] at hfull
          rw [UInt64.le_iff_toNat_le]
          change s.merkleNodesClaimed.toNat + 1 = _ at hnodes
          omega
        · split at h
          · cases h
            cases hleaves
          · cases h

theorem not_outOfLeaves_of_checkClaimable {s : Settlement} (h : s.checkClaimable clock = .error e) :
    ¬OutOfLeaves e := by
  rw [Settlement.checkClaimable] at h
  intro hleaves
  cases hstatus : s.status clock <;> rw [hstatus] at h <;> cases h <;> cases hleaves

theorem not_outOfLeaves_of_get {bitmap : ClaimBitmap} {index : UInt64}
    (h : bitmap.get index = .error e) : ¬OutOfLeaves e := by
  rw [ClaimBitmap.get_eq] at h
  intro hleaves
  split at h
  · cases h
    cases hleaves
  · cases h

/-- A claim that runs out of leaves has a free leaf: the bitmap is asked before the counter. -/
theorem free_of_outOfLeaves (h : claims.planAdmission request clock = .error e)
    (hleaves : OutOfLeaves e) :
    ∃ bitmap, claims.bitmap = some bitmap ∧ bitmap.get request.index = .ok false ∧
      countClaim claims.settlement request.claim = .error e := by
  rw [planAdmission_eq] at h
  split at h
  · cases h
    cases hleaves
  · rename_i bitmap hopen
    split at h
    · rename_i hwindow
      cases h
      exact absurd hleaves (not_outOfLeaves_of_checkClaimable hwindow)
    · split at h
      · split at h
        · rename_i hread
          cases h
          exact absurd hleaves (not_outOfLeaves_of_get hread)
        · cases h
          cases hleaves
        · rename_i hfree
          split at h
          · rename_i hcount
            cases h
            exact ⟨bitmap, hopen, hfree, hcount⟩
          · cases h
      · cases h
        cases hleaves

theorem accept_eq_error_iff :
    claims.accept request clock = .error e ↔ claims.planAdmission request clock = .error e := by
  cases hplan : claims.planAdmission request clock with
  | error other => simp [accept_of_refused hplan]
  | ok admission =>
      obtain ⟨_, _, -, -, -, haccept⟩ := accept_of_planned hplan
      simp [haccept]

end

/-- In every state that a new settlement can reach, a leaf that is in range and free leaves room for one
more claim.  So no claim is refused because as many were admitted as there are leaves, and none because
their number would leave 64 bits, whatever is claimed and whenever. -/
theorem never_out_of_leaves {terms : SettlementTerms} {config claimsConfig : Config}
    {settlement : Settlement} {claims : Claims}
    (hcreate : Settlement.create terms config = .ok settlement)
    (hstart : start settlement claimsConfig = .ok claims) (operations : List Operation) :
    let state := claims.run operations
    (∀ index, state.isClaimed index = .ok false →
      state.settlement.merkleNodesClaimed < state.settlement.maxMerkleNodes) ∧
    ∀ request clock e,
      state.planAdmission request clock = .error e ∨ state.accept request clock = .error e →
        (∀ requested limit, e ≠ .capacityExceeded .claimCount requested limit) ∧
          e ≠ .arithmeticOverflow .merkleNodesClaimed := by
  intro state
  have hbalanced : Balanced state ((claims.grants operations).map (·.2))
      (claims.recordedPlans operations) := balanced_run (balanced_start hcreate hstart) operations
  have hanchored : Anchored claimsConfig state :=
    (anchored_of_opened (.start hstart)).run operations
  have hroom : ∀ bitmap index, state.bitmap = some bitmap → bitmap.get index = .ok false →
      state.settlement.merkleNodesClaimed < state.settlement.maxMerkleNodes :=
    fun bitmap _ hopen hfree => hbalanced.room hopen (hanchored.records_eq bitmap hopen) hfree
  constructor
  · intro index hfree
    obtain ⟨bitmap, hopen, hoff⟩ := isClaimed_eq_ok_iff.1 hfree
    exact hroom bitmap index hopen hoff
  · intro request clock e hrefused
    have hplan : state.planAdmission request clock = .error e :=
      hrefused.elim id accept_eq_error_iff.1
    have hnever : ¬OutOfLeaves e := by
      intro hleaves
      obtain ⟨bitmap, hopen, hfree, hcount⟩ := free_of_outOfLeaves hplan hleaves
      exact UInt64.not_lt.2 (full_of_countClaim hcount hleaves) (hroom bitmap _ hopen hfree)
    refine ⟨?_, ?_⟩
    · rintro requested limit rfl
      exact hnever (.limit requested limit)
    · rintro rfl
      exact hnever .overflow

/-- One of two leaves is claimed, and the other one still has room. -/
theorem never_out_of_leaves_with_one_left :
    let r : Merkle.IndexedClaimRecord := ⟨Bytes32.zero, Bytes32.zero, 3, 0, none⟩
    let request := ClaimRequest.ofRecord r
    let terms : SettlementTerms := ⟨Bytes32.zero, r.leaf, 3, 2, 0, 0, Bytes32.zero⟩
    let config : Config := ⟨Bytes32.zero, Bytes32.zero, 3, 0, 3, 0⟩
    let operations : List Operation :=
      [.record (.wholeAccount Bytes32.zero Bytes32.zero 3), .accept request ⟨0, 0, 0⟩]
    ∃ settlement claims, Settlement.create terms config = .ok settlement ∧
      start settlement config = .ok claims ∧
      ((claims.run operations).isClaimed 0 = .ok true ∧
        (claims.run operations).isClaimed 1 = .ok false) ∧
      (claims.run operations).settlement.merkleNodesClaimed
        < (claims.run operations).settlement.maxMerkleNodes ∧
      ∀ other clock requested limit, (claims.run operations).planAdmission other clock
        ≠ .error (.capacityExceeded .claimCount requested limit) := by
  intro r request terms config operations
  obtain ⟨settlement, hcreate, hroot, hmax, hwindow, hfunded, hcount⟩ : ∃ settlement,
      Settlement.create terms config = .ok settlement ∧ settlement.merkleRoot = r.leaf ∧
        settlement.maxMerkleNodes = 2 ∧ settlement.status ⟨0, 0, 0⟩ = .opened ∧
        settlement.recordFunding (.wholeAccount Bytes32.zero Bytes32.zero 3)
          = .ok { settlement with lamportsFunded := 3 } ∧
        countClaim { settlement with lamportsFunded := 3 } 3 = .ok (3, 1) :=
    ⟨_, rfl, rfl, rfl, rfl, rfl, rfl⟩
  let free : ClaimBitmap := ⟨2, #[0], by decide, by decide⟩
  let marked : ClaimBitmap := ⟨2, #[1], by decide, by decide⟩
  let claims : Claims := ⟨settlement.address config, settlement, some free⟩
  let funded : Claims := { claims with settlement := { settlement with lamportsFunded := 3 } }
  have hstart : start settlement config = .ok claims := by
    rw [start, hmax]
    rfl
  have hset : free.trySet 0 = .ok marked := by decide
  have hproof : Merkle.verifyProof request.leaf request.proof settlement.merkleRoot = true :=
    Merkle.verifyWithOrder_iff.2 hroot.symm
  have hrun : claims.run operations = funded.credit marked 3 1 := by
    have hrecord : Step claims (.record (.wholeAccount Bytes32.zero Bytes32.zero 3)) .recorded
        funded := .record rfl hfunded
    have haccept : Step funded (.accept request ⟨0, 0, 0⟩)
        (.admitted (funded.admissionOf request 3 1)) (funded.credit marked 3 1) :=
      .accept rfl hwindow hproof hset hcount
    change (claims.after _).after _ = _
    rw [after_of_step hrecord, after_of_step haccept]
  have hclaimed : (claims.run operations).isClaimed 0 = .ok true ∧
      (claims.run operations).isClaimed 1 = .ok false := by
    rw [hrun]
    change marked.get 0 = .ok true ∧ marked.get 1 = .ok false
    decide
  obtain ⟨hroom, hanswers⟩ := never_out_of_leaves hcreate hstart operations
  refine ⟨settlement, claims, hcreate, hstart, hclaimed, hroom 1 hclaimed.2, ?_⟩
  intro other clock requested limit hrefused
  exact (hanswers other clock _ (.inl hrefused)).1 requested limit rfl

end Claims

end Surety
