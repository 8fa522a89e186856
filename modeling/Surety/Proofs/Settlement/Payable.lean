import Mathlib.Algebra.BigOperators.Group.Finset.Basic
import Mathlib.Algebra.Order.BigOperators.Group.Finset
import Surety.Proofs.Merkle.Completeness
import Surety.Proofs.Settlement.Authenticity

/-!
# Claims that a settlement can pay

A settlement whose limits and funding cover all records under its root never refuses a record for
lack of room, whichever records were claimed before: the sums and numbers over any part of the
records stay below those over all of them.

* `Payable` says that the records fit.
* `Tally` is the invariant: bitmap and counters account for a set of records.  It determines them
  (`Tally.unique`), so the order in which the records came is lost.
* `Tally.perform_new` and `Tally.perform_again` are the two cases of a turn.
-/

namespace Surety

namespace Claims

/-- A turn of a client: it claims a record at some time. -/
structure Turn where
  record : Merkle.IndexedClaimRecord
  clock : Clock

namespace Turn

/-- The operation that a turn performs. -/
def operation (turn : Turn) : Operation := .accept (.ofRecord turn.record) turn.clock

/-- A turn claims one of some records inside the claim window of a settlement. -/
def Timely (turn : Turn) (records : List Merkle.IndexedClaimRecord) (s : Settlement) : Prop :=
  turn.record ∈ records ∧ s.claimableFromSlot ≤ turn.clock.slot ∧
    turn.clock.epoch ≤ s.claimableUntilEpoch

end Turn

/-! ## What can be paid -/

/-- The records are those of a settlement, each with its proof, and can all be paid from it. -/
structure Payable (records : List Merkle.IndexedClaimRecord) (s : Settlement) : Prop where
  distinct : (records.map (·.index)).Nodup
  in_range : ∀ r ∈ records, r.index < s.maxMerkleNodes
  proofs : ∀ (k : Nat) (_ : k < records.length),
    records[k].proof = (Merkle.Tree.ofItems (Merkle.recordItems records) true).proof? k
  root : (Merkle.Tree.ofItems (Merkle.recordItems records) true).root? = some s.merkleRoot
  within_total : (records.map (·.claim.toNat)).sum ≤ s.maxTotalClaim.toNat
  within_funding : (records.map (·.claim.toNat)).sum ≤ s.lamportsFunded.toNat

section Payable

variable {records : List Merkle.IndexedClaimRecord} {s : Settlement}

/-- The proof that a record comes with leads to the root. -/
theorem Payable.verifies (h : Payable records s) {r : Merkle.IndexedClaimRecord}
    (hr : r ∈ records) :
    Merkle.verifyProof (ClaimRequest.ofRecord r).leaf (ClaimRequest.ofRecord r).proof s.merkleRoot
      = true := by
  obtain ⟨k, hk, rfl⟩ := List.getElem_of_mem hr
  have hitems : k < (Merkle.recordItems records).length := by
    simpa [Merkle.recordItems] using hk
  obtain ⟨path, hpath, -, hlead⟩ := @Merkle.Tree.path?_leads_to_root _ true k hitems
  have hproof : (ClaimRequest.ofRecord records[k]).proof = path.siblings := by
    change records[k].proof.getD [] = path.siblings
    rw [h.proofs k hk, Merkle.Tree.proof?, hpath]
    rfl
  have hleaf : (ClaimRequest.ofRecord records[k]).leaf
      = Merkle.leafHash (Merkle.recordItems records)[k] := by
    simp only [Merkle.recordItems, List.getElem_map]
    rfl
  rw [Merkle.verifyProof, Merkle.verifyWithOrder_iff, hproof, hleaf,
    Merkle.foldProof_sorted_siblings]
  exact Option.some.inj (hlead.symm.trans h.root)

/-- Different records have different indices. -/
theorem Payable.eq_of_index_eq (h : Payable records s) {r other : Merkle.IndexedClaimRecord}
    (hr : r ∈ records) (hother : other ∈ records) (heq : r.index = other.index) : r = other :=
  List.inj_on_of_nodup_map h.distinct hr hother heq

/-- Any part of the records claims no more than all of them. -/
theorem Payable.sum_le (h : Payable records s) {asked : Finset Merkle.IndexedClaimRecord}
    (hasked : asked ⊆ records.toFinset) :
    ∑ r ∈ asked, r.claim.toNat ≤ (records.map (·.claim.toNat)).sum := by
  calc ∑ r ∈ asked, r.claim.toNat
      ≤ ∑ r ∈ records.toFinset, r.claim.toNat := Finset.sum_le_sum_of_subset hasked
    _ = (records.map (·.claim.toNat)).sum := List.sum_toFinset _ (List.Nodup.of_map _ h.distinct)

/-- There are no more records than leaves, since their indices are different and in range. -/
theorem Payable.card_le (h : Payable records s) {asked : Finset Merkle.IndexedClaimRecord}
    (hasked : asked ⊆ records.toFinset) : asked.card ≤ s.maxMerkleNodes.toNat := by
  have hrecord : ∀ r ∈ asked, r ∈ records := fun r hr => List.mem_toFinset.1 (hasked hr)
  calc asked.card
      ≤ (Finset.range s.maxMerkleNodes.toNat).card := by
        refine Finset.card_le_card_of_injOn (·.index.toNat) ?_ ?_
        · intro r hr
          exact Finset.mem_coe.2 (Finset.mem_range.2
            (UInt64.lt_iff_toNat_lt.1 (h.in_range r (hrecord r hr))))
        · intro r hr other hother heq
          exact h.eq_of_index_eq (hrecord r hr) (hrecord other hother) (UInt64.toNat_inj.1 heq)
    _ = s.maxMerkleNodes.toNat := Finset.card_range _

end Payable

/-! ## Accounting for a set of records -/

/-- Bitmap and counters account for exactly the claims of some records. -/
structure Tally (asked : Finset Merkle.IndexedClaimRecord) (maxRecords : UInt64)
    (bitmap : ClaimBitmap) (lamports nodes : UInt64) : Prop where
  width : bitmap.maxRecords = maxRecords
  marked : ∀ position, Bitmap.bit bitmap.data position = true ↔
    ∃ r ∈ asked, r.index.toNat = position
  lamports_eq : lamports.toNat = ∑ r ∈ asked, r.claim.toNat
  nodes_eq : nodes.toNat = asked.card

/-- A set of records leaves no choice for bitmap and counters. -/
theorem Tally.unique {asked : Finset Merkle.IndexedClaimRecord} {maxRecords : UInt64}
    {bitmap bitmap' : ClaimBitmap} {lamports lamports' nodes nodes' : UInt64}
    (h : Tally asked maxRecords bitmap lamports nodes)
    (h' : Tally asked maxRecords bitmap' lamports' nodes') :
    bitmap = bitmap' ∧ lamports = lamports' ∧ nodes = nodes' := by
  refine ⟨ClaimBitmap.eq_of_bit_eq (h.width.trans h'.width.symm) fun position => ?_,
    UInt64.toNat_inj.1 (h.lamports_eq.trans h'.lamports_eq.symm),
    UInt64.toNat_inj.1 (h.nodes_eq.trans h'.nodes_eq.symm)⟩
  exact Bool.eq_iff_iff.2 ((h.marked position).trans (h'.marked position).symm)

section Tally

variable {records : List Merkle.IndexedClaimRecord} {funded : Claims}
  {asked : Finset Merkle.IndexedClaimRecord} {bitmap : ClaimBitmap} {lamports nodes : UInt64}

/-- Whether a record is marked is whether it was asked for. -/
theorem Tally.get_eq (h : Tally asked funded.settlement.maxMerkleNodes bitmap lamports nodes)
    (hpayable : Payable records funded.settlement) (hasked : asked ⊆ records.toFinset)
    {r : Merkle.IndexedClaimRecord} (hr : r ∈ records) :
    bitmap.get r.index = .ok (decide (r ∈ asked)) := by
  rw [ClaimBitmap.get_eq_ok_iff]
  refine ⟨h.width ▸ hpayable.in_range r hr, ?_⟩
  rw [Bool.eq_iff_iff, h.marked, decide_eq_true_eq]
  constructor
  · rintro ⟨other, hother, heq⟩
    have hlisted : other ∈ records := List.mem_toFinset.1 (hasked hother)
    rwa [← hpayable.eq_of_index_eq hlisted hr (UInt64.toNat_inj.1 heq)]
  · intro hold
    exact ⟨r, hold, rfl⟩

/-- Counting the claim of one more record keeps within all limits. -/
theorem Tally.countClaim_eq
    (h : Tally asked funded.settlement.maxMerkleNodes bitmap lamports nodes)
    (hpayable : Payable records funded.settlement) (hasked : asked ⊆ records.toFinset)
    {r : Merkle.IndexedClaimRecord} (hr : r ∈ records) (hnew : r ∉ asked) :
    ∃ lamports' nodes' : UInt64,
      countClaim (funded.credit bitmap lamports nodes).settlement r.claim
        = .ok (lamports', nodes') ∧
      lamports'.toNat = ∑ other ∈ insert r asked, other.claim.toNat ∧
      nodes'.toNat = (insert r asked).card := by
  have hinsert : insert r asked ⊆ records.toFinset :=
    Finset.insert_subset (List.mem_toFinset.2 hr) hasked
  -- no limit is reached, because the larger set is still a part of the records
  have hsum := hpayable.sum_le hinsert
  have hcard := hpayable.card_le hinsert
  have htotal := hpayable.within_total
  have hfunding := hpayable.within_funding
  have hlamports := h.lamports_eq
  have hnodes := h.nodes_eq
  -- the new counters are those of the larger set, which fit because they are below the limits
  have hfitSum : (UInt64.ofNat (∑ other ∈ insert r asked, other.claim.toNat)).toNat
      = ∑ other ∈ insert r asked, other.claim.toNat :=
    UInt64.toNat_ofNat_of_lt' ((hsum.trans htotal).trans_lt (UInt64.toNat_lt_size _))
  have hfitCard : (UInt64.ofNat (insert r asked).card).toNat = (insert r asked).card :=
    UInt64.toNat_ofNat_of_lt' (hcard.trans_lt (UInt64.toNat_lt_size _))
  refine ⟨_, _, countClaim_eq_ok_iff.2 ⟨?_, ?_, ?_, ?_, ?_⟩, hfitSum, hfitCard⟩
  · rw [hfitSum, Finset.sum_insert hnew, ← hlamports, Nat.add_comm]
    rfl
  · rw [hfitCard, Finset.card_insert_of_notMem hnew, ← hnodes]
    rfl
  · rw [UInt64.le_iff_toNat_le, hfitSum]
    exact hsum.trans htotal
  · rw [UInt64.le_iff_toNat_le, hfitCard]
    exact hcard
  · rw [UInt64.le_iff_toNat_le, hfitSum]
    exact hsum.trans hfunding

/-- The first claim of a record is admitted, and the record joins the others. -/
theorem Tally.perform_new
    (h : Tally asked funded.settlement.maxMerkleNodes bitmap lamports nodes)
    (hpayable : Payable records funded.settlement) (hasked : asked ⊆ records.toFinset)
    {turn : Turn} (hturn : turn.Timely records funded.settlement) (hnew : turn.record ∉ asked) :
    ∃ (admission : ClaimAdmission) (bitmap' : ClaimBitmap) (lamports' nodes' : UInt64),
      (funded.credit bitmap lamports nodes).perform turn.operation
        = .ok (.admitted admission, funded.credit bitmap' lamports' nodes') ∧
      admission.Pays turn.record ∧
      Tally (insert turn.record asked) funded.settlement.maxMerkleNodes bitmap' lamports'
        nodes' := by
  obtain ⟨hlisted, hwindow⟩ := hturn
  have hopened : (funded.credit bitmap lamports nodes).settlement.status turn.clock = .opened :=
    Settlement.status_eq_opened_iff.2 hwindow
  have hfree : bitmap.get turn.record.index = .ok false := by
    rw [h.get_eq hpayable hasked hlisted, decide_eq_false hnew]
  obtain ⟨bitmap', hset⟩ := ClaimBitmap.exists_trySet hfree
  obtain ⟨-, hwidth, hbit⟩ := ClaimBitmap.trySet_eq_ok_iff.1 hset
  obtain ⟨lamports', nodes', hcount, hlamports, hnodes⟩ :=
    h.countClaim_eq hpayable hasked hlisted hnew
  refine ⟨_, bitmap', lamports', nodes', perform_eq_ok_iff.2
    (.accept rfl hopened (hpayable.verifies hlisted) hset hcount), ⟨rfl, rfl, rfl, rfl⟩, ?_⟩
  refine ⟨hwidth.trans h.width, fun position => ?_, hlamports, hnodes⟩
  rw [hbit, Bool.or_eq_true, h.marked, decide_eq_true_eq, Finset.exists_mem_insert, or_comm]
  exact or_congr_left eq_comm

/-- Any later claim of a record is refused. -/
theorem Tally.perform_again
    (h : Tally asked funded.settlement.maxMerkleNodes bitmap lamports nodes)
    (hpayable : Payable records funded.settlement) (hasked : asked ⊆ records.toFinset)
    {turn : Turn} (hturn : turn.Timely records funded.settlement) (hold : turn.record ∈ asked) :
    (funded.credit bitmap lamports nodes).perform turn.operation
      = .error (.alreadyClaimed turn.record.index) := by
  obtain ⟨hlisted, hwindow⟩ := hturn
  have hclaimed : bitmap.get turn.record.index = .ok true := by
    rw [h.get_eq hpayable hasked hlisted, decide_eq_true hold]
  exact perform_accept_of_claimed rfl (Settlement.status_eq_opened_iff.2 hwindow)
    (hpayable.verifies hlisted) hclaimed

end Tally

end Claims

end Surety
