import Surety.Proofs.Settlement.Payable

/-!
# Clients that share a settlement

Several clients claim the records of a settlement that can pay them all.  Whoever takes the next
turn, the first claim of each record is admitted and every later one finds it claimed; where they
end depends on the records that were asked for and not on the order of the turns.

A turn is one whole operation: the settlement is locked from the first check to the last change.

* `Interleaving` describes the orders in which the turns of clients can be taken.
* `Served` is what a run of turns keeps: the state accounts for the records asked for so far.
* `claims_of_clients_in_any_order` is the result.
-/

namespace Surety

/-- The turns of some clients, one after another: each turn is the next one of some client. -/
inductive Interleaving {α : Type} : List (List α) → List α → Prop
  | done {clients : List (List α)} (h : ∀ client ∈ clients, client = []) : Interleaving clients []
  | turn {before after : List (List α)} {next : α} {rest schedule : List α}
      (h : Interleaving (before ++ rest :: after) schedule) :
      Interleaving (before ++ (next :: rest) :: after) (next :: schedule)

/-- The turns that are taken are those of the clients. -/
theorem Interleaving.mem_iff {α : Type} {clients : List (List α)} {schedule : List α}
    (h : Interleaving clients schedule) (x : α) :
    x ∈ schedule ↔ x ∈ clients.flatten := by
  induction h with
  | done h =>
      rw [List.flatten_eq_nil_iff.2 h]
  | turn _ ih =>
      rw [List.mem_cons, ih]
      simp only [List.flatten_append, List.flatten_cons, List.mem_append, List.cons_append,
        List.mem_cons]
      tauto

namespace Claims

/-- The records that clients ask for. -/
def requested (clients : List (List Turn)) : Finset Merkle.IndexedClaimRecord :=
  (clients.flatten.map Turn.record).toFinset

/-! ## Runs of turns -/

/-- The state accounts for exactly the claims of some records, over what it was when funded. -/
def Served (funded : Claims) (asked : Finset Merkle.IndexedClaimRecord) (claims : Claims) : Prop :=
  ∃ (bitmap : ClaimBitmap) (lamports nodes : UInt64),
    claims = funded.credit bitmap lamports nodes ∧
      Tally asked funded.settlement.maxMerkleNodes bitmap lamports nodes

section Served

variable {records : List Merkle.IndexedClaimRecord} {funded claims : Claims}
  {asked : Finset Merkle.IndexedClaimRecord}

theorem Served.unique {claims' : Claims} (h : Served funded asked claims)
    (h' : Served funded asked claims') : claims = claims' := by
  obtain ⟨bitmap, lamports, nodes, rfl, htally⟩ := h
  obtain ⟨bitmap', lamports', nodes', rfl, htally'⟩ := h'
  obtain ⟨rfl, rfl, rfl⟩ := htally.unique htally'
  rfl

theorem Served.lamportsClaimed_eq (h : Served funded asked claims) :
    claims.settlement.lamportsClaimed.toNat = ∑ r ∈ asked, r.claim.toNat := by
  obtain ⟨bitmap, lamports, nodes, rfl, htally⟩ := h
  exact htally.lamports_eq

theorem Served.merkleNodesClaimed_eq (h : Served funded asked claims) :
    claims.settlement.merkleNodesClaimed.toNat = asked.card := by
  obtain ⟨bitmap, lamports, nodes, rfl, htally⟩ := h
  exact htally.nodes_eq

theorem Served.isClaimed_eq (h : Served funded asked claims)
    (hpayable : Payable records funded.settlement) (hasked : asked ⊆ records.toFinset)
    {r : Merkle.IndexedClaimRecord} (hr : r ∈ records) :
    claims.isClaimed r.index = .ok (decide (r ∈ asked)) := by
  obtain ⟨bitmap, lamports, nodes, rfl, htally⟩ := h
  exact htally.get_eq hpayable hasked hr

/-- The answer to a turn depends on whether its record was asked for before. -/
theorem Served.answer (h : Served funded asked claims)
    (hpayable : Payable records funded.settlement) (hasked : asked ⊆ records.toFinset)
    {turn : Turn} (hturn : turn.Timely records funded.settlement) :
    (turn.record ∉ asked → ∃ admission : ClaimAdmission, admission.Pays turn.record ∧
      (claims.perform turn.operation).map (·.1) = .ok (.admitted admission)) ∧
    (turn.record ∈ asked →
      (claims.perform turn.operation).map (·.1)
        = .error (.alreadyClaimed turn.record.index)) := by
  obtain ⟨bitmap, lamports, nodes, rfl, htally⟩ := h
  constructor
  · intro hnew
    obtain ⟨admission, _, _, _, hperform, hpays, -⟩ :=
      htally.perform_new hpayable hasked hturn hnew
    exact ⟨admission, hpays, by rw [hperform]; rfl⟩
  · intro hold
    rw [htally.perform_again hpayable hasked hturn hold]
    rfl

/-- A turn, admitted or refused, adds its record. -/
theorem Served.after (h : Served funded asked claims)
    (hpayable : Payable records funded.settlement) (hasked : asked ⊆ records.toFinset)
    {turn : Turn} (hturn : turn.Timely records funded.settlement) :
    Served funded (insert turn.record asked) (claims.after turn.operation) := by
  obtain ⟨bitmap, lamports, nodes, rfl, htally⟩ := h
  by_cases hold : turn.record ∈ asked
  · -- refused: nothing changes, and the record was already in the set
    rw [after_of_error (htally.perform_again hpayable hasked hturn hold),
      Finset.insert_eq_of_mem hold]
    exact ⟨bitmap, lamports, nodes, rfl, htally⟩
  · obtain ⟨_, bitmap', lamports', nodes', hperform, -, htally'⟩ :=
      htally.perform_new hpayable hasked hturn hold
    rw [Claims.after, hperform]
    exact ⟨bitmap', lamports', nodes', rfl, htally'⟩

/-- A run of turns adds the records of them all. -/
theorem Served.run (h : Served funded asked claims)
    (hpayable : Payable records funded.settlement) (hasked : asked ⊆ records.toFinset)
    {schedule : List Turn} (hturns : ∀ turn ∈ schedule, turn.Timely records funded.settlement) :
    Served funded (asked ∪ (schedule.map Turn.record).toFinset)
      (claims.run (schedule.map Turn.operation)) := by
  induction schedule generalizing asked claims with
  | nil => simpa [Claims.run] using h
  | cons turn rest ih =>
      have hturn := hturns turn List.mem_cons_self
      have hinsert : insert turn.record asked ⊆ records.toFinset :=
        Finset.insert_subset (List.mem_toFinset.2 hturn.1) hasked
      have hrest := ih (h.after hpayable hasked hturn) hinsert
        fun next hnext => hturns next (List.mem_cons_of_mem _ hnext)
      rw [List.map_cons, List.toFinset_cons, Finset.union_insert, ← Finset.insert_union]
      exact hrest

end Served

/-- The answer to an operation of a run is its answer in the state before it. -/
theorem answers_getElem? (claims : Claims) (earlier : List Operation) (operation : Operation)
    (later : List Operation) :
    (claims.answers (earlier ++ operation :: later))[earlier.length]?
      = some (((claims.run earlier).perform operation).map (·.1)) := by
  induction earlier generalizing claims with
  | nil => rfl
  | cons first earlier ih => exact ih (claims.after first)

/-- Recording plans leaves the bitmap and the counted claims alone. -/
theorem run_record (claims : Claims) (plans : List FundingPlan) :
    (claims.run (plans.map .record)).bitmap = claims.bitmap ∧
      (claims.run (plans.map .record)).settlement.lamportsClaimed
        = claims.settlement.lamportsClaimed ∧
      (claims.run (plans.map .record)).settlement.merkleNodesClaimed
        = claims.settlement.merkleNodesClaimed := by
  induction plans generalizing claims with
  | nil => exact ⟨rfl, rfl, rfl⟩
  | cons plan rest ih =>
      change ((claims.after (.record plan)).run _).bitmap = _ ∧
        ((claims.after (.record plan)).run _).settlement.lamportsClaimed = _ ∧
        ((claims.after (.record plan)).run _).settlement.merkleNodesClaimed = _
      obtain ⟨hbitmap, hclaimed, hnodes⟩ := ih (claims.after (.record plan))
      rw [hbitmap, hclaimed, hnodes]
      rcases perform_cases claims (.record plan) with ⟨_, -, hafter⟩ | ⟨_, _, -, hafter, hstep⟩
      · rw [hafter]
        exact ⟨rfl, rfl, rfl⟩
      · rw [hafter]
        cases hstep with
        | record hopen hfunded => exact ⟨rfl, Settlement.claimed_of_recordFunding hfunded⟩

theorem credit_self {claims : Claims} {bitmap : ClaimBitmap} (h : claims.bitmap = some bitmap) :
    claims.credit bitmap claims.settlement.lamportsClaimed claims.settlement.merkleNodesClaimed
      = claims := by
  rw [credit, ← h]

/-- A settlement that was only funded has served no record. -/
theorem served_funded {terms : SettlementTerms} {config claimsConfig : Config}
    {settlement : Settlement} {claims : Claims}
    (hcreate : Settlement.create terms config = .ok settlement)
    (hstart : start settlement claimsConfig = .ok claims) (plans : List FundingPlan) :
    Served (claims.run (plans.map .record)) ∅ (claims.run (plans.map .record)) := by
  obtain ⟨-, -, -, -, hclaimed, hnodes⟩ := Settlement.fields_of_create hcreate
  obtain ⟨rfl, bitmap, hbitmap, hempty⟩ := start_eq_ok hstart
  obtain ⟨hwidth, -, hoff⟩ := ClaimBitmap.empty_eq_ok hempty
  obtain ⟨hsameBitmap, hsameClaimed, hsameNodes⟩ := run_record claims plans
  obtain ⟨-, -, hmax, -⟩ := Settlement.limits_of_constants
    (run_constants claims (plans.map .record)).2
  refine ⟨bitmap, _, _, (credit_self (hsameBitmap.trans hbitmap)).symm,
    hwidth.trans hmax.symm, ?_, ?_, ?_⟩
  · intro position
    simp [hoff]
  · rw [hsameClaimed, hclaimed]
    rfl
  · rw [hsameNodes, hnodes]
    rfl

/-! ## Clients -/

/-- In any order of turns, every turn is timely when the clients take only such turns. -/
theorem timely_of_interleaving {records : List Merkle.IndexedClaimRecord} {s : Settlement}
    {clients : List (List Turn)} {schedule : List Turn} (hschedule : Interleaving clients schedule)
    (hturns : ∀ client ∈ clients, ∀ turn ∈ client, turn.Timely records s) :
    ∀ turn ∈ schedule, turn.Timely records s := by
  intro turn hturn
  obtain ⟨client, hclient, hmem⟩ := List.mem_flatten.1 ((hschedule.mem_iff turn).1 hturn)
  exact hturns client hclient turn hmem

/-- In any order of turns, the records served are those that the clients ask for. -/
theorem served_of_interleaving {records : List Merkle.IndexedClaimRecord} {funded : Claims}
    (hfunded : Served funded ∅ funded) (hpayable : Payable records funded.settlement)
    {clients : List (List Turn)} {schedule : List Turn} (hschedule : Interleaving clients schedule)
    (hturns : ∀ client ∈ clients, ∀ turn ∈ client, turn.Timely records funded.settlement) :
    Served funded (requested clients) (funded.run (schedule.map Turn.operation)) := by
  have hrequested : (schedule.map Turn.record).toFinset = requested clients := by
    ext r
    simp only [requested, List.mem_toFinset, List.mem_map, hschedule.mem_iff]
  have hrun := hfunded.run hpayable (Finset.empty_subset _)
    (timely_of_interleaving hschedule hturns)
  rwa [Finset.empty_union, hrequested] at hrun

/-- When some clients claim the records of a settlement that can pay them, in whatever order their
turns are taken, the first claim of each record is admitted and every later one is refused as
already claimed; the state in the end is that of any other clients and turns that ask for the same
records, and its counters and claimed leaves are those of the records asked for. -/
theorem claims_of_clients_in_any_order {records : List Merkle.IndexedClaimRecord}
    {terms : SettlementTerms} {config claimsConfig : Config} {settlement : Settlement}
    {claims : Claims} {plans : List FundingPlan} {clients : List (List Turn)}
    {schedule : List Turn}
    (hcreate : Settlement.create terms config = .ok settlement)
    (hstart : start settlement claimsConfig = .ok claims)
    (hpayable : Payable records (claims.run (plans.map .record)).settlement)
    (hturns : ∀ client ∈ clients, ∀ turn ∈ client,
      turn.Timely records (claims.run (plans.map .record)).settlement)
    (hschedule : Interleaving clients schedule) :
    let funded := claims.run (plans.map .record)
    let answers := funded.answers (schedule.map Turn.operation)
    let final := funded.run (schedule.map Turn.operation)
    (∀ earlier turn later, schedule = earlier ++ turn :: later →
      (turn.record ∉ earlier.map Turn.record → ∃ admission : ClaimAdmission,
        admission.Pays turn.record ∧ answers[earlier.length]? = some (.ok (.admitted admission))) ∧
      (turn.record ∈ earlier.map Turn.record →
        answers[earlier.length]? = some (.error (.alreadyClaimed turn.record.index)))) ∧
    (∀ (otherClients : List (List Turn)) (otherSchedule : List Turn),
      (∀ client ∈ otherClients, ∀ turn ∈ client, turn.Timely records funded.settlement) →
      Interleaving otherClients otherSchedule → requested otherClients = requested clients →
      funded.run (otherSchedule.map Turn.operation) = final) ∧
    final.settlement.lamportsClaimed.toNat = ∑ r ∈ requested clients, r.claim.toNat ∧
    final.settlement.merkleNodesClaimed.toNat = (requested clients).card ∧
    ∀ r ∈ records, final.isClaimed r.index = .ok (decide (r ∈ requested clients)) := by
  intro funded answers final
  have hfunded := served_funded hcreate hstart plans
  have hfinal := served_of_interleaving hfunded hpayable hschedule hturns
  have htimely := timely_of_interleaving hschedule hturns
  refine ⟨?_, ?_, hfinal.lamportsClaimed_eq, hfinal.merkleNodesClaimed_eq, ?_⟩
  · rintro earlier turn later rfl
    -- the turns before this one have served the records that they asked for
    have hbefore := hfunded.run hpayable (Finset.empty_subset _) fun next hnext =>
      htimely next (List.mem_append_left _ hnext)
    rw [Finset.empty_union] at hbefore
    have hasked : (earlier.map Turn.record).toFinset ⊆ records.toFinset := by
      intro r hr
      obtain ⟨next, hnext, rfl⟩ := List.mem_map.1 (List.mem_toFinset.1 hr)
      exact List.mem_toFinset.2 (htimely next (List.mem_append_left _ hnext)).1
    have hanswer : answers[earlier.length]? = some
        (((funded.run (earlier.map Turn.operation)).perform turn.operation).map (·.1)) := by
      have h := answers_getElem? funded (earlier.map Turn.operation) turn.operation
        (later.map Turn.operation)
      rwa [List.length_map, ← List.map_cons, ← List.map_append] at h
    obtain ⟨hnew, hold⟩ := hbefore.answer hpayable hasked (htimely turn (by simp))
    rw [List.mem_toFinset] at hnew hold
    rw [hanswer]
    constructor
    · intro hfirst
      obtain ⟨admission, hpays, hadmitted⟩ := hnew hfirst
      exact ⟨admission, hpays, congrArg some hadmitted⟩
    · intro hlater
      exact congrArg some (hold hlater)
  · intro others turns hothers hinterleaving hsame
    have hother := served_of_interleaving hfunded hpayable hinterleaving hothers
    rw [hsame] at hother
    exact hother.unique hfinal
  · intro r hr
    refine hfinal.isClaimed_eq hpayable ?_ hr
    intro other hother
    obtain ⟨turn, hturn, rfl⟩ := List.mem_map.1 (List.mem_toFinset.1 hother)
    exact List.mem_toFinset.2 (htimely turn ((hschedule.mem_iff turn).2 hturn)).1

/-- Two clients claim the same two records, and the second client is the first to take a turn. -/
theorem claims_of_two_clients :
    let first : Merkle.IndexedClaimRecord := ⟨Bytes32.zero, Bytes32.zero, 7, 0, none⟩
    let second : Merkle.IndexedClaimRecord := ⟨Bytes32.zero, Bytes32.zero, 8, 1, none⟩
    let tree := Merkle.Tree.ofItems (Merkle.recordItems [first, second]) true
    let a : Turn := ⟨{ first with proof := tree.proof? 0 }, ⟨0, 0, 0⟩⟩
    let b : Turn := ⟨{ second with proof := tree.proof? 1 }, ⟨1, 0, 0⟩⟩
    let terms : SettlementTerms :=
      ⟨Bytes32.zero, Merkle.parent true first.leaf second.leaf, 20, 2, 0, 0, Bytes32.zero⟩
    let config : Config := ⟨Bytes32.zero, Bytes32.zero, 3, 0, 3, 0⟩
    let funding : List Operation := [.record (.wholeAccount Bytes32.zero Bytes32.zero 15)]
    ∃ settlement claims, Settlement.create terms config = .ok settlement ∧
      start settlement config = .ok claims ∧ Interleaving [[a, b], [b, a]] [b, a, b, a] ∧
      (∃ admission : ClaimAdmission, admission.Pays b.record ∧
        ((claims.run funding).answers ([b, a, b, a].map Turn.operation))[0]?
          = some (.ok (.admitted admission))) ∧
      ((claims.run funding).answers ([b, a, b, a].map Turn.operation))[2]?
        = some (.error (.alreadyClaimed 1)) := by
  intro first second tree a b terms config funding
  have hinterleaving : Interleaving [[a, b], [b, a]] [b, a, b, a] :=
    @Interleaving.turn _ [[a, b]] [] b [a] [a, b, a]
      (@Interleaving.turn _ [] [[a]] a [b] [b, a]
        (@Interleaving.turn _ [] [[a]] b [] [a]
          (@Interleaving.turn _ [[]] [] a [] [] (.done (by simp)))))
  -- the addresses of the settlement are never computed: only its counters and limits matter
  obtain ⟨settlement, hcreate, hslot, hepoch⟩ : ∃ settlement,
      Settlement.create terms config = .ok settlement ∧
        settlement.claimableFromSlot = 0 ∧ settlement.claimableUntilEpoch = 3 :=
    ⟨_, rfl, rfl, rfl⟩
  obtain ⟨hroot, htotal, hmax, hzero, -, -⟩ := Settlement.fields_of_create hcreate
  obtain ⟨claims, hstart⟩ : ∃ claims, start settlement config = .ok claims := by
    rw [start, hmax]
    exact ⟨_, rfl⟩
  obtain ⟨rfl, bitmap, hbitmap, -⟩ := start_eq_ok hstart
  have hplan : claims.settlement.recordFunding (.wholeAccount Bytes32.zero Bytes32.zero 15)
      = .ok { claims.settlement with lamportsFunded := 15 } :=
    Settlement.recordFunding_eq_ok_iff.2 ⟨by rw [hzero]; rfl, rfl⟩
  have hfunded : claims.run funding
      = { claims with settlement := { claims.settlement with lamportsFunded := 15 } } :=
    after_of_step (.record hbitmap hplan)
  have hitems : Merkle.recordItems [a.record, b.record] = Merkle.recordItems [first, second] := rfl
  have hpayable : Payable [a.record, b.record] (claims.run funding).settlement := by
    rw [hfunded]
    refine ⟨by decide, ?_, ?_, ?_, ?_, Nat.le_refl 15⟩
    · intro r hr
      change r.index < claims.settlement.maxMerkleNodes
      rw [hmax]
      rcases List.mem_pair.1 hr with rfl | rfl
      · decide
      · decide
    · intro k hk
      rw [hitems]
      obtain rfl | rfl : k = 0 ∨ k = 1 := by
        change k < 2 at hk
        omega
      · rfl
      · rfl
    · rw [hitems, Merkle.Tree.ofItems_root?]
      change _ = some claims.settlement.merkleRoot
      rw [hroot]
      change Merkle.apex? true [first.leaf, second.leaf] = some terms.merkleRoot
      rw [← Merkle.apex?_pairUp (by decide)]
      exact Merkle.apex?_singleton true (Merkle.parent true first.leaf second.leaf)
    · change _ ≤ claims.settlement.maxTotalClaim.toNat
      rw [htotal]
      decide
  have hturns : ∀ client ∈ [[a, b], [b, a]], ∀ turn ∈ client,
      turn.Timely [a.record, b.record] (claims.run funding).settlement := by
    rw [hfunded]
    intro client hclient turn hturn
    have hmem : turn = a ∨ turn = b := by
      rcases List.mem_pair.1 hclient with rfl | rfl
      · exact List.mem_pair.1 hturn
      · exact (List.mem_pair.1 hturn).symm
    rcases hmem with rfl | rfl
    · refine ⟨by simp, ?_, ?_⟩
      · exact hslot.trans_le (by decide)
      · exact (show (0 : UInt64) ≤ 3 by decide).trans_eq hepoch.symm
    · refine ⟨by simp, ?_, ?_⟩
      · exact hslot.trans_le (by decide)
      · exact (show (1 : UInt64) ≤ 3 by decide).trans_eq hepoch.symm
  obtain ⟨hanswers, -⟩ := @claims_of_clients_in_any_order [a.record, b.record] terms config config
    _ _ [.wholeAccount Bytes32.zero Bytes32.zero 15] _ _ hcreate hstart hpayable hturns
    hinterleaving
  refine ⟨claims.settlement, claims, hcreate, hstart, hinterleaving, ?_, ?_⟩
  · exact (hanswers [] b [a, b, a] rfl).1 (by simp)
  · exact (hanswers [b, a] b [a] rfl).2 (by simp)

end Claims

end Surety
