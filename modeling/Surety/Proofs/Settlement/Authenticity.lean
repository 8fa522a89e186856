import Surety.Proofs.Merkle.Binding
import Surety.Proofs.Merkle.Completeness
import Surety.Proofs.Settlement.Ledger

/-!
# Only listed claims are paid, each once

A settlement whose root is that of a tree over some records admits nothing but claims of these
records, and no leaf twice, whatever is submitted in whatever order with whatever proofs; or two
different strings with the same hash are found among those hashed for the records, their tree and
the submitted requests.

* `granted_of_mem_grants` says what was checked when a claim of a run was admitted.
* `record_of_verified_request` is the result for a single request.
* `grants_of_listed_records` is the result for a run.
-/

namespace Surety

/-! ## Strings hashed for records and requests -/

/-- The string hashed for the item of a record. -/
def Merkle.IndexedClaimRecord.preimage (r : Merkle.IndexedClaimRecord) : Bytes :=
  Merkle.indexedItemPreimage r.stakeAuthority r.withdrawAuthority r.claim r.index

namespace ClaimRequest

/-- The item that a request stands for. -/
def item (request : ClaimRequest) : Digest :=
  Merkle.indexedItemHash request.stakeAuthority request.withdrawAuthority request.claim
    request.index

/-- The strings hashed for a request: its item, its leaf and the way along its proof. -/
def preimages (request : ClaimRequest) : List Bytes :=
  Merkle.indexedItemPreimage request.stakeAuthority request.withdrawAuthority request.claim
      request.index
    :: Merkle.leafPreimage request.item.toList
    :: Merkle.foldPreimages .sorted 0 request.leaf request.proof

/-- A request asks for what a record grants. -/
def AsksFor (request : ClaimRequest) (r : Merkle.IndexedClaimRecord) : Prop :=
  request.stakeAuthority = r.stakeAuthority ∧ request.withdrawAuthority = r.withdrawAuthority ∧
    request.claim = r.claim ∧ request.index = r.index

end ClaimRequest

/-- An admission pays what a record grants. -/
def ClaimAdmission.Pays (admission : ClaimAdmission) (r : Merkle.IndexedClaimRecord) : Prop :=
  admission.stakeAuthority = r.stakeAuthority ∧ admission.withdrawAuthority = r.withdrawAuthority ∧
    admission.amount = r.claim ∧ admission.index = r.index

namespace Merkle

/-- The items of records, as a tree takes them. -/
def recordItems (records : List IndexedClaimRecord) : List Bytes := records.map (·.item.toList)

/-- The strings hashed for records and the sorted tree over them. -/
def recordPreimages (records : List IndexedClaimRecord) : List Bytes :=
  records.map IndexedClaimRecord.preimage ++ Tree.preimages (recordItems records) true

/-- A request whose proof leads to the root of records asks for what one of them grants, or there
is a collision. -/
theorem record_of_verified_request {records : List IndexedClaimRecord} {root : Digest}
    {request : ClaimRequest} {strings : List Bytes}
    (hroot : (Tree.ofItems (recordItems records) true).root? = some root)
    (hproof : verifyProof request.leaf request.proof root = true)
    (hrecords : recordPreimages records ⊆ strings) (hrequest : request.preimages ⊆ strings) :
    (∃ r ∈ records, request.AsksFor r) ∨ Sha256.Collision strings := by
  obtain ⟨hitems, htree⟩ := List.append_subset.1 hrecords
  obtain ⟨hitem, hrest⟩ := List.cons_subset.1 hrequest
  obtain ⟨hleaf, hfold⟩ := List.cons_subset.1 hrest
  rcases item_of_verified_proof hroot hproof htree hleaf hfold with ⟨hmem, -⟩ | hcollision
  · obtain ⟨r, hr, heq⟩ := List.mem_map.1 hmem
    have hstring : r.preimage ∈ strings := hitems (List.mem_map_of_mem hr)
    have hhash : r.item = request.item := Bytes32.ext heq
    refine (Sha256.eq_or_collision hitem hstring hhash.symm).imp_left fun hsame => ?_
    exact ⟨r, hr, indexedItemPreimage_injective hsame⟩
  · exact .inr hcollision

end Merkle

namespace Claims

/-- An admitted claim was submitted, its proof led to the root, and its admission repeats it. -/
theorem granted_of_mem_grants {claims : Claims} {operations : List Operation}
    {request : ClaimRequest} {admission : ClaimAdmission}
    (h : (request, admission) ∈ claims.grants operations) :
    request ∈ submitted operations ∧
      Merkle.verifyProof request.leaf request.proof claims.settlement.merkleRoot = true ∧
      ∃ (state : Claims) (lamports nodes : UInt64),
        admission = state.admissionOf request lamports nodes := by
  obtain ⟨clock, before, next, hprefix, hstep⟩ := step_of_mem_grants h
  have hsubmitted : Operation.accept request clock ∈ operations :=
    hprefix.subset (List.mem_append_right before List.mem_cons_self)
  -- the whole run checks its proofs against one root
  have hroot := (Settlement.limits_of_constants (run_constants claims before).2).1
  cases hstep with
  | accept hopen hwindow hproof hset hcount =>
      rw [hroot] at hproof
      exact ⟨List.mem_filterMap.2 ⟨_, hsubmitted, rfl⟩, hproof, claims.run before, _, _, rfl⟩

/-- Every claim that a run of a new settlement admits is the claim of a record under its root, and
no two of them have the same index; or there is a collision among the strings hashed for the records
and their tree and for the submitted requests. -/
theorem grants_of_listed_records {records : List Merkle.IndexedClaimRecord}
    {terms : SettlementTerms} {config claimsConfig : Config} {settlement : Settlement}
    {claims : Claims}
    (hroot : (Merkle.Tree.ofItems (Merkle.recordItems records) true).root?
      = some terms.merkleRoot)
    (hcreate : Settlement.create terms config = .ok settlement)
    (hstart : start settlement claimsConfig = .ok claims) (operations : List Operation) :
    ((∀ grant ∈ claims.grants operations,
        ∃ r ∈ records, grant.1.AsksFor r ∧ grant.2.Pays r) ∧
      ((claims.grants operations).map (·.2.index)).Nodup) ∨
    Sha256.Collision (Merkle.recordPreimages records
      ++ (submitted operations).flatMap ClaimRequest.preimages) := by
  have hdistinct : ((claims.grants operations).map (·.2.index)).Nodup := by
    have h := (balanced_run (balanced_start hcreate hstart) operations).distinct
    simpa [List.map_map, Function.comp_def] using h
  have hsame : claims.settlement.merkleRoot = terms.merkleRoot := by
    rw [(start_eq_ok hstart).1, (Settlement.fields_of_create hcreate).1]
  by_cases hcollision : Sha256.Collision (Merkle.recordPreimages records
      ++ (submitted operations).flatMap ClaimRequest.preimages)
  · exact .inr hcollision
  · refine .inl ⟨?_, hdistinct⟩
    rintro ⟨request, admission⟩ hgrant
    obtain ⟨hsubmitted, hproof, state, lamports, nodes, rfl⟩ := granted_of_mem_grants hgrant
    rw [hsame] at hproof
    have hrequest : request.preimages ⊆ Merkle.recordPreimages records
        ++ (submitted operations).flatMap ClaimRequest.preimages := by
      intro string hstring
      exact List.mem_append_right _ (List.mem_flatMap.2 ⟨request, hsubmitted, hstring⟩)
    obtain ⟨r, hr, hasks⟩ := (Merkle.record_of_verified_request hroot hproof
      (List.subset_append_left _ _) hrequest).resolve_right hcollision
    exact ⟨r, hr, hasks, hasks⟩

/-- A settlement over three records, of which the last is paired with itself.  The second one is claimed
twice and the third one once, each with both hashes on its way to the root. -/
theorem grants_of_three_records :
    let address (n : UInt8) : Address := ⟨List.replicate 32 n, List.length_replicate⟩
    let first : Merkle.IndexedClaimRecord := ⟨address 1, address 2, 4, 0, none⟩
    let second : Merkle.IndexedClaimRecord := ⟨address 3, address 4, 5, 1, none⟩
    let third : Merkle.IndexedClaimRecord := ⟨address 5, address 6, 6, 2, none⟩
    let left := Merkle.parent true first.leaf second.leaf
    let right := Merkle.parent true third.leaf third.leaf
    let claimSecond := ClaimRequest.ofRecord { second with proof := some [first.leaf, right] }
    let claimThird := ClaimRequest.ofRecord { third with proof := some [third.leaf, left] }
    let terms : SettlementTerms :=
      ⟨address 7, Merkle.parent true left right, 20, 3, 0, 0, address 8⟩
    let config : Config := ⟨address 9, address 10, 3, 0, 3, 0⟩
    let operations : List Operation :=
      [.record (.wholeAccount (address 11) (address 12) 15), .accept claimSecond ⟨0, 0, 0⟩,
        .accept claimSecond ⟨1, 0, 0⟩, .accept claimThird ⟨1, 0, 0⟩]
    ∃ settlement claims, Settlement.create terms config = .ok settlement ∧
      start settlement config = .ok claims ∧
      (claims.grants operations).map (·.1) = [claimSecond, claimThird] ∧
      (((∀ grant ∈ claims.grants operations,
          ∃ r ∈ [first, second, third], grant.1.AsksFor r ∧ grant.2.Pays r) ∧
        ((claims.grants operations).map (·.2.index)).Nodup) ∨
      Sha256.Collision (Merkle.recordPreimages [first, second, third]
        ++ (submitted operations).flatMap ClaimRequest.preimages)) := by
  intro address first second third left right claimSecond claimThird terms config operations
  have hroot : (Merkle.Tree.ofItems (Merkle.recordItems [first, second, third]) true).root?
      = some terms.merkleRoot := by
    rw [Merkle.Tree.ofItems_root?]
    change Merkle.apex? true [first.leaf, second.leaf, third.leaf] = some terms.merkleRoot
    rw [← Merkle.apex?_pairUp (by simp)]
    change Merkle.apex? true [left, right] = some terms.merkleRoot
    rw [← Merkle.apex?_pairUp (by simp)]
    exact Merkle.apex?_singleton true (Merkle.parent true left right)
  -- a leaf is hashed with its neighbour, and the result with the other parent
  have hproofSecond : Merkle.verifyProof claimSecond.leaf claimSecond.proof terms.merkleRoot
      = true := by
    apply Merkle.verifyWithOrder_iff.2
    change Merkle.foldProof .sorted 0 second.leaf [first.leaf, right] = Merkle.parent true left right
    simp only [Merkle.foldProof, Merkle.pairHash_sorted]
    rw [Merkle.parent_sorted_comm second.leaf first.leaf]
  have hproofThird : Merkle.verifyProof claimThird.leaf claimThird.proof terms.merkleRoot
      = true := by
    apply Merkle.verifyWithOrder_iff.2
    change Merkle.foldProof .sorted 0 third.leaf [third.leaf, left] = Merkle.parent true left right
    simp only [Merkle.foldProof, Merkle.pairHash_sorted]
    exact Merkle.parent_sorted_comm right left
  obtain ⟨settlement, hcreate, hsame, hmax, hopened, hreopened, hfunded, hcount, hrecount⟩ :
      ∃ settlement, Settlement.create terms config = .ok settlement ∧
        terms.merkleRoot = settlement.merkleRoot ∧ settlement.maxMerkleNodes = 3 ∧
        settlement.status ⟨0, 0, 0⟩ = .opened ∧ settlement.status ⟨1, 0, 0⟩ = .opened ∧
        settlement.recordFunding (.wholeAccount (address 11) (address 12) 15)
          = .ok { settlement with lamportsFunded := 15 } ∧
        countClaim { settlement with lamportsFunded := 15 } 5 = .ok (5, 1) ∧
        countClaim { settlement with
          lamportsFunded := 15, lamportsClaimed := 5, merkleNodesClaimed := 1 } 6 = .ok (11, 2) :=
    ⟨_, rfl, rfl, rfl, rfl, rfl, rfl, rfl, rfl⟩
  rw [hsame] at hproofSecond hproofThird
  let free : ClaimBitmap := ⟨3, #[0], by decide, by decide⟩
  let one : ClaimBitmap := ⟨3, #[2], by decide, by decide⟩
  let two : ClaimBitmap := ⟨3, #[6], by decide, by decide⟩
  let claims : Claims := ⟨settlement.address config, settlement, some free⟩
  let funded : Claims := { claims with settlement := { settlement with lamportsFunded := 15 } }
  let credited : Claims := funded.credit one 5 1
  have hstart : start settlement config = .ok claims := by
    rw [start, hmax]
    rfl
  have hrecord : Step claims (.record (.wholeAccount (address 11) (address 12) 15)) .recorded
      funded := .record rfl hfunded
  have hsecond : Step funded (.accept claimSecond ⟨0, 0, 0⟩)
      (.admitted (funded.admissionOf claimSecond 5 1)) credited :=
    .accept rfl hopened hproofSecond (show free.trySet 1 = .ok one by decide) hcount
  have hagain : credited.perform (.accept claimSecond ⟨1, 0, 0⟩) = .error (.alreadyClaimed 1) :=
    perform_accept_of_claimed rfl hreopened hproofSecond (show one.get 1 = .ok true by decide)
  have hthird : Step credited (.accept claimThird ⟨1, 0, 0⟩)
      (.admitted (credited.admissionOf claimThird 11 2)) (credited.credit two 11 2) :=
    .accept rfl hreopened hproofThird (show one.trySet 2 = .ok two by decide) hrecount
  have hgrants : claims.grants operations
      = [(claimSecond, funded.admissionOf claimSecond 5 1),
        (claimThird, credited.admissionOf claimThird 11 2)] := by
    rw [grants, events_of_step hrecord, events_of_step hsecond, events_of_error hagain,
      events_of_step hthird]
    rfl
  refine ⟨settlement, claims, hcreate, hstart, ?_, ?_⟩
  · rw [hgrants]
    rfl
  · exact grants_of_listed_records hroot hcreate hstart operations

end Claims

end Surety
