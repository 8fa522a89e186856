import Surety.Proofs.Settlement.Ledger
import Surety.Proofs.Stake.Size

/-!
# Funding a settlement from stake accounts

Stake accounts are offered to a settlement one after another, each judged by its own configuration.
An account is split only when what it holds covers all that is missing, so a split ends the funding:
no later plan touches the settlement, and the rent that was noted for the split stays noted.  An
account that is taken whole exceeds what is missing by less than its minimal size.

* `planOffer_of_usable` says when an account is split, over unbounded numbers.
* `FundingStep` lists the three ways in which an offer can succeed, `fund_eq_ok_iff` says that these
  are all.
* `offerInPlace` writes to the settlement where `fund` answers a new one; `exec_offerInPlace` says that
  it is a transaction.
* `SplitNoted` is the invariant, between a settlement and the plans that were recorded for it.
-/

namespace Surety

namespace Stake

variable {account : Account} {voter bondsAuthority : Address} {minStake : UInt64}

theorem checkUsableForFunding_eq_ok_iff :
    checkUsableForFunding account voter bondsAuthority minStake = .ok () ↔
      checkOwnedByBond account voter bondsAuthority = .ok () ∧ account.stage = .active ∧
        minimalSize account.rentExemptReserve minStake ≤ account.balance := by
  unfold checkUsableForFunding
  cases howned : checkOwnedByBond account voter bondsAuthority with
  | error e => simp
  | ok =>
      by_cases hactive : account.stage = .active
      · by_cases hsmall : account.balance < minimalSize account.rentExemptReserve minStake
        · simp [hactive, hsmall]
        · simp [hactive, UInt64.not_lt.1 hsmall, hsmall]
      · simp [hactive]

end Stake

/-- The balance that the account of an offer has to keep. -/
def FundingOffer.minimalSize (offer : FundingOffer) : UInt64 :=
  Stake.minimalSize offer.account.rentExemptReserve offer.config.minimumStake

/-- The check of the account of an offer. -/
def FundingOffer.checkUsable (offer : FundingOffer) : Result Unit :=
  Stake.checkUsableForFunding offer.account offer.bond.voteAccount offer.bondsAuthority
    offer.config.minimumStake

theorem FundingOffer.minimalSize_le_balance {offer : FundingOffer}
    (h : offer.checkUsable = .ok ()) : offer.minimalSize.toNat ≤ offer.account.balance.toNat :=
  UInt64.le_iff_toNat_le.1 (Stake.checkUsableForFunding_eq_ok_iff.1 h).2.2

/-- What exceeds a need can be split off when the account holds the minimal size once more: what stays
behind holds it anyway, as a part of the need. -/
theorem FundingOffer.splits_iff {offer : FundingOffer} {amount needed : UInt64}
    (hneeded : amount.toNat + offer.minimalSize.toNat = needed.toNat) :
    needed < offer.account.balance ∧
        Stake.passes (Stake.checkSplittable offer.account (offer.account.balance - needed)
          offer.config.minimumStake) = true ↔
      amount.toNat + 2 * offer.minimalSize.toNat ≤ offer.account.balance.toNat := by
  have hpositive : 0 < offer.minimalSize.toNat := Stake.minimalSize_pos _ _
  rw [Stake.passes_checkSplittable_iff, UInt64.le_iff_toNat_le, UInt64.lt_iff_toNat_lt]
  show _ ∧ _ + offer.minimalSize.toNat ≤ _ ∧ offer.minimalSize.toNat ≤ _ ↔ _
  constructor
  · rintro ⟨hless, -, hrest⟩
    rw [UInt64.toNat_sub_of_le _ _ (UInt64.le_iff_toNat_le.2 (by omega))] at hrest
    omega
  · intro hcovers
    rw [UInt64.toNat_sub_of_le _ _ (UInt64.le_iff_toNat_le.2 (by omega))]
    omega

/-- The collector and the rent that a plan to split wants noted. -/
def FundingPlan.rent? : FundingPlan → Option (Address × UInt64)
  | .split _ _ _ _ collector amount => some (collector, amount)
  | _ => none

namespace Settlement

/-! ## What a plan looks like -/

/-- What is missing of the total. -/
def missing (s : Settlement) : UInt64 := subSaturating s.maxTotalClaim s.lamportsFunded

/-- All that an account holds above its minimal size is taken. -/
def wholePlan (s : Settlement) (offer : FundingOffer) : FundingPlan :=
  .wholeAccount offer.account.address s.stakerAuthority (offer.account.balance - offer.minimalSize)

/-- What is missing is taken, and what exceeds it and the minimal size is split off. -/
def splitPlan (s : Settlement) (offer : FundingOffer) : FundingPlan :=
  .split offer.account.address s.stakerAuthority s.missing
    (offer.account.balance - (s.missing + offer.minimalSize)) offer.splitRentCollector
    offer.account.rentExemptReserve

section

variable {s next : Settlement} {offer : FundingOffer} {plan : FundingPlan}

theorem isFullyFunded_iff : s.isFullyFunded = true ↔ s.maxTotalClaim ≤ s.lamportsFunded :=
  decide_eq_true_iff

theorem missing_toNat (hopen : s.lamportsFunded < s.maxTotalClaim) :
    s.lamportsFunded.toNat + s.missing.toNat = s.maxTotalClaim.toNat := by
  rw [UInt64.lt_iff_toNat_lt] at hopen
  rw [missing, subSaturating_toNat]
  omega

theorem planOffer_of_funded (offer : FundingOffer) (h : s.maxTotalClaim ≤ s.lamportsFunded) :
    s.planOffer offer = .ok .alreadyFunded := by
  rw [planOffer, planFunding, if_pos (isFullyFunded_iff.2 h)]

theorem planOffer_of_unusable {e : Error} (hopen : s.lamportsFunded < s.maxTotalClaim)
    (h : offer.checkUsable = .error e) : s.planOffer offer = .error e := by
  have hnot : ¬s.isFullyFunded = true := mt isFullyFunded_iff.1 (UInt64.not_le.2 hopen)
  rw [FundingOffer.checkUsable] at h
  rw [planOffer, planFunding, if_neg hnot]
  simp only [h]

/-- The account is split when it covers what is missing and two minimal sizes: one stays with the part
that is assigned, one with the part that is split off. -/
theorem planOffer_of_usable (hopen : s.lamportsFunded < s.maxTotalClaim)
    (husable : offer.checkUsable = .ok ()) :
    s.planOffer offer =
      if 2 ^ 64 ≤ s.missing.toNat + offer.minimalSize.toNat then
        .error (.arithmeticOverflow .amountNeeded)
      else if s.missing.toNat + 2 * offer.minimalSize.toNat ≤ offer.account.balance.toNat then
        .ok (s.splitPlan offer)
      else .ok (s.wholePlan offer) := by
  have hnot : ¬s.isFullyFunded = true := mt isFullyFunded_iff.1 (UInt64.not_le.2 hopen)
  have hchecked := husable
  rw [FundingOffer.checkUsable] at hchecked
  rw [planOffer, planFunding, if_neg hnot]
  simp only [hchecked]
  cases hsum : addChecked s.missing offer.minimalSize with
  | none =>
      have hover := addChecked_eq_none_iff.1 hsum
      rw [missing, FundingOffer.minimalSize] at hsum
      simp only [hsum]
      rw [if_pos hover]
  | some needed =>
      have hneeded := addChecked_eq_some_iff.1 hsum
      have hfits := needed.toNat_lt
      have hadd := eq_add_of_addChecked hsum
      rw [missing, FundingOffer.minimalSize] at hsum
      simp only [hsum, FundingOffer.splits_iff hneeded]
      have hwithin : ¬2 ^ 64 ≤ s.missing.toNat + offer.minimalSize.toNat := by omega
      rw [if_neg hwithin]
      split
      · rw [splitPlan, ← hadd]
        rfl
      · rfl

/-! ## What an offer does -/

/-- What a successful offer checks, the plan for it and the settlement after it. -/
inductive FundingStep (s : Settlement) (offer : FundingOffer) : FundingPlan → Settlement → Prop
  | done (hfunded : s.maxTotalClaim ≤ s.lamportsFunded) : FundingStep s offer .alreadyFunded s
  | whole {funded : UInt64} (hopen : s.lamportsFunded < s.maxTotalClaim)
      (husable : offer.checkUsable = .ok ())
      (hfits : s.missing.toNat + offer.minimalSize.toNat < 2 ^ 64)
      (hbalance : offer.account.balance.toNat < s.missing.toNat + 2 * offer.minimalSize.toNat)
      (hfunded : s.lamportsFunded.toNat + offer.account.balance.toNat
        = funded.toNat + offer.minimalSize.toNat) :
      FundingStep s offer (s.wholePlan offer) { s with lamportsFunded := funded }
  | split (hopen : s.lamportsFunded < s.maxTotalClaim) (husable : offer.checkUsable = .ok ())
      (hbalance : s.missing.toNat + 2 * offer.minimalSize.toNat ≤ offer.account.balance.toNat) :
      FundingStep s offer (s.splitPlan offer)
        { s with
          lamportsFunded := s.maxTotalClaim
          splitRentCollector := some offer.splitRentCollector
          splitRentAmount := offer.account.rentExemptReserve }

theorem fund_eq_ok_iff_recorded :
    s.fund offer = .ok (plan, next) ↔
      s.planOffer offer = .ok plan ∧ s.recordFunding plan = .ok next := by
  unfold fund
  cases s.planOffer offer with
  | error e => simp
  | ok planned =>
      simp only [Except.ok.injEq]
      constructor
      · intro h
        split at h
        · cases h
        · rename_i recorded hrecorded
          cases h
          exact ⟨rfl, hrecorded⟩
      · rintro ⟨rfl, hrecorded⟩
        rw [hrecorded]

theorem recordFunding_alreadyFunded (s : Settlement) :
    s.recordFunding .alreadyFunded = .ok s :=
  recordFunding_eq_ok_iff.2 ⟨Nat.add_zero _, rfl⟩

theorem recordFunding_wholePlan_iff (husable : offer.checkUsable = .ok ()) :
    s.recordFunding (s.wholePlan offer) = .ok next ↔
      s.lamportsFunded.toNat + offer.account.balance.toNat
          = next.lamportsFunded.toNat + offer.minimalSize.toNat ∧
        next = { s with lamportsFunded := next.lamportsFunded } := by
  have hkept := FundingOffer.minimalSize_le_balance husable
  have htaken : (s.wholePlan offer).lamports.toNat
      = offer.account.balance.toNat - offer.minimalSize.toNat :=
    UInt64.toNat_sub_of_le _ _ (UInt64.le_iff_toNat_le.2 hkept)
  rw [recordFunding_eq_ok_iff, htaken]
  refine and_congr ?_ Iff.rfl
  omega

theorem recordFunding_splitPlan_iff (hopen : s.lamportsFunded < s.maxTotalClaim) :
    s.recordFunding (s.splitPlan offer) = .ok next ↔
      next =
        { s with
          lamportsFunded := s.maxTotalClaim
          splitRentCollector := some offer.splitRentCollector
          splitRentAmount := offer.account.rentExemptReserve } := by
  have hmissing := missing_toNat hopen
  rw [recordFunding_eq_ok_iff]
  constructor
  · rintro ⟨hsum, hnext⟩
    have hfull : next.lamportsFunded = s.maxTotalClaim :=
      UInt64.toNat_inj.1 (hsum.symm.trans hmissing)
    rw [hnext, hfull]
    rfl
  · rintro rfl
    exact ⟨hmissing, rfl⟩

/-- An offer succeeds in the ways that `FundingStep` lists and in no other. -/
theorem fund_eq_ok_iff : s.fund offer = .ok (plan, next) ↔ FundingStep s offer plan next := by
  rw [fund_eq_ok_iff_recorded]
  constructor
  · rintro ⟨hplan, hrecorded⟩
    by_cases hfunded : s.maxTotalClaim ≤ s.lamportsFunded
    · rw [planOffer_of_funded offer hfunded] at hplan
      cases hplan
      rw [recordFunding_alreadyFunded] at hrecorded
      cases hrecorded
      exact .done hfunded
    · have hopen := UInt64.not_le.1 hfunded
      cases husable : offer.checkUsable with
      | error e =>
          rw [planOffer_of_unusable hopen husable] at hplan
          cases hplan
      | ok =>
          rw [planOffer_of_usable hopen husable] at hplan
          split at hplan
          · cases hplan
          · rename_i hfits
            split at hplan
            · rename_i hbalance
              cases hplan
              rw [recordFunding_splitPlan_iff hopen] at hrecorded
              rw [hrecorded]
              exact .split hopen husable hbalance
            · rename_i hbalance
              cases hplan
              rw [recordFunding_wholePlan_iff husable] at hrecorded
              rw [hrecorded.2]
              exact .whole hopen husable (by omega) (by omega) hrecorded.1
  · intro h
    cases h with
    | done hfunded =>
        exact ⟨planOffer_of_funded offer hfunded, recordFunding_alreadyFunded s⟩
    | whole hopen husable hfits hbalance hfunded =>
        constructor
        · rw [planOffer_of_usable hopen husable, if_neg (by omega), if_neg (by omega)]
        · rw [recordFunding_wholePlan_iff husable]
          exact ⟨hfunded, rfl⟩
    | split hopen husable hbalance =>
        -- two minimal sizes fit the balance, so what is needed fits 64 bits
        have hpositive : 0 < offer.minimalSize.toNat := Stake.minimalSize_pos _ _
        have hlt := offer.account.balance.toNat_lt
        constructor
        · rw [planOffer_of_usable hopen husable, if_neg (by omega), if_pos hbalance]
        · rw [recordFunding_splitPlan_iff hopen]

theorem maxTotalClaim_of_step (h : FundingStep s offer plan next) :
    next.maxTotalClaim = s.maxTotalClaim := by
  cases h <;> rfl

/-- A plan that uses an account leaves less than the minimal size of the account above the total. -/
theorem lamportsFunded_lt_of_step (h : FundingStep s offer plan next)
    (hplan : plan ≠ .alreadyFunded) :
    next.lamportsFunded.toNat < s.maxTotalClaim.toNat + offer.minimalSize.toNat := by
  cases h with
  | done => exact absurd rfl hplan
  | whole hopen _ _ hbalance hfunded =>
      have hmissing := missing_toNat hopen
      simp only
      omega
  | split =>
      have hpositive : 0 < offer.minimalSize.toNat := Stake.minimalSize_pos _ _
      simp only
      omega

/-! ## Runs -/

/-- The settlement after an offer, whether the offer succeeds or not. -/
def afterOffer (s : Settlement) (offer : FundingOffer) : Settlement :=
  match s.fund offer with
  | .ok (_, next) => next
  | .error _ => s

/-- The settlement after offers one after another. -/
def afterOffers (s : Settlement) (offers : List FundingOffer) : Settlement :=
  offers.foldl afterOffer s

/-- The plans that are recorded for offers one after another. -/
def fundingPlans (s : Settlement) : List FundingOffer → List FundingPlan
  | [] => []
  | offer :: rest =>
      match s.fund offer with
      | .ok (plan, next) => plan :: next.fundingPlans rest
      | .error _ => s.fundingPlans rest

theorem afterOffer_of_step (h : FundingStep s offer plan next) : s.afterOffer offer = next := by
  rw [afterOffer, fund_eq_ok_iff.2 h]

/-- An offer is refused and changes nothing, or it takes one of the steps. -/
theorem offer_cases (s : Settlement) (offer : FundingOffer) :
    (∃ e, s.fund offer = .error e ∧ s.afterOffer offer = s) ∨
    ∃ plan next, s.fund offer = .ok (plan, next) ∧ s.afterOffer offer = next ∧
      FundingStep s offer plan next := by
  cases hresult : s.fund offer with
  | error e => exact .inl ⟨e, rfl, by rw [afterOffer, hresult]⟩
  | ok pair =>
      obtain ⟨plan, next⟩ := pair
      have hstep := fund_eq_ok_iff.1 hresult
      exact .inr ⟨plan, next, rfl, afterOffer_of_step hstep, hstep⟩

/-- Plan for an offer, then record the plan. -/
def offerInPlace (offer : FundingOffer) : Update Settlement FundingPlan := do
  let plan ← Update.need ((← get).planOffer offer)
  recordInPlace plan
  return plan

/-- Funding in place is a transaction: an offer that is refused, when it is planned for or when its plan
is recorded, has written nothing. -/
theorem exec_offerInPlace (s : Settlement) (offer : FundingOffer) :
    (offerInPlace offer).exec s = Update.commit s (s.fund offer) := by
  unfold offerInPlace fund
  simp only [Update.exec_bind, Update.exec_get, Update.exec_need]
  cases s.planOffer offer with
  | error e => rfl
  | ok plan =>
      dsimp only
      rw [exec_recordInPlace]
      cases s.recordFunding plan <;> rfl

/-- Whether it succeeds or not, an offer leaves the same settlement when it is planned and recorded in
place. -/
theorem exec_offerInPlace_snd (s : Settlement) (offer : FundingOffer) :
    ((offerInPlace offer).exec s).2 = s.afterOffer offer := by
  rw [exec_offerInPlace, afterOffer]
  cases s.fund offer <;> rfl

theorem maxTotalClaim_afterOffers (s : Settlement) (offers : List FundingOffer) :
    (s.afterOffers offers).maxTotalClaim = s.maxTotalClaim := by
  induction offers generalizing s with
  | nil => rfl
  | cons offer rest ih =>
      refine (ih (s.afterOffer offer)).trans ?_
      rcases offer_cases s offer with ⟨_, -, hsame⟩ | ⟨_, _, -, hafter, hstep⟩
      · rw [hsame]
      · rw [hafter, maxTotalClaim_of_step hstep]

/-- Once all is funded, no offer changes the settlement. -/
theorem afterOffers_of_funded (h : s.maxTotalClaim ≤ s.lamportsFunded)
    (offers : List FundingOffer) : s.afterOffers offers = s := by
  induction offers with
  | nil => rfl
  | cons offer rest ih =>
      show (s.afterOffer offer).afterOffers rest = s
      rw [afterOffer_of_step (.done h), ih]

/-- The rents that recorded plans wanted noted, against what a settlement has noted: nothing as long
as no account was split, and then the rent of the one account whose split ended the funding. -/
inductive SplitNoted (s : Settlement) : List (Address × UInt64) → Prop
  | unsplit (hcollector : s.splitRentCollector = none) (hamount : s.splitRentAmount = 0) :
      SplitNoted s []
  | split {collector : Address} {amount : UInt64} (hcollector : s.splitRentCollector = some collector)
      (hamount : s.splitRentAmount = amount) (hfunded : s.lamportsFunded = s.maxTotalClaim) :
      SplitNoted s [(collector, amount)]

theorem SplitNoted.of_nil (h : SplitNoted s []) :
    s.splitRentCollector = none ∧ s.splitRentAmount = 0 := by
  cases h with
  | unsplit hcollector hamount => exact ⟨hcollector, hamount⟩

theorem SplitNoted.of_mem {rents : List (Address × UInt64)} {rent : Address × UInt64}
    (h : SplitNoted s rents) (hmem : rent ∈ rents) :
    s.splitRentCollector = some rent.1 ∧ s.splitRentAmount = rent.2 ∧
      s.lamportsFunded = s.maxTotalClaim := by
  cases h with
  | unsplit => cases hmem
  | split hcollector hamount hfunded =>
      obtain rfl := List.mem_singleton.1 hmem
      exact ⟨hcollector, hamount, hfunded⟩

/-- As long as something is missing, no account was split. -/
theorem SplitNoted.eq_nil_of_open {rents : List (Address × UInt64)} (h : SplitNoted s rents)
    (hopen : s.lamportsFunded < s.maxTotalClaim) : rents = [] := by
  cases h with
  | unsplit => rfl
  | split _ _ hfunded =>
      rw [hfunded] at hopen
      exact absurd hopen (UInt64.lt_irrefl _)

theorem SplitNoted.length_le_one {rents : List (Address × UInt64)} (h : SplitNoted s rents) :
    rents.length ≤ 1 := by
  cases h <;> simp

theorem SplitNoted.step {rents : List (Address × UInt64)} (hnoted : SplitNoted s rents)
    (h : FundingStep s offer plan next) : SplitNoted next (rents ++ plan.rent?.toList) := by
  cases h with
  | done => simpa [FundingPlan.rent?] using hnoted
  | whole hopen =>
      -- an account that is taken whole leaves the noted rent alone, and there is none yet
      obtain rfl := hnoted.eq_nil_of_open hopen
      obtain ⟨hcollector, hamount⟩ := hnoted.of_nil
      exact .unsplit hcollector hamount
  | split hopen =>
      -- the list was empty, so the rent of this split is the first to be noted
      obtain rfl := hnoted.eq_nil_of_open hopen
      exact .split rfl rfl rfl

theorem SplitNoted.run {rents : List (Address × UInt64)} (hnoted : SplitNoted s rents)
    (offers : List FundingOffer) :
    SplitNoted (s.afterOffers offers)
      (rents ++ (s.fundingPlans offers).filterMap FundingPlan.rent?) := by
  induction offers generalizing s rents with
  | nil => simpa [fundingPlans, afterOffers] using hnoted
  | cons offer rest ih =>
      show SplitNoted ((s.afterOffer offer).afterOffers rest) _
      rcases offer_cases s offer with ⟨e, hresult, hsame⟩ | ⟨plan, next, hresult, hafter, hstep⟩
      · rw [hsame, fundingPlans, hresult]
        exact ih hnoted
      · have hrun := ih (hnoted.step hstep)
        rw [hafter, fundingPlans, hresult]
        cases hrent : plan.rent? with
        | none => simpa [hrent] using hrun
        | some rent => simpa [hrent] using hrun

/-- Nothing is noted when a settlement is created. -/
theorem splitNoted_of_create {terms : SettlementTerms} {config : Config}
    (h : create terms config = .ok s) : SplitNoted s [] := by
  unfold create at h
  split at h
  · cases h
  · cases h
    exact .unsplit rfl rfl

theorem recordFunding_error {e : Error} (h : s.recordFunding plan = .error e) :
    e = .arithmeticOverflow .lamportsFunded ∧
      2 ^ 64 ≤ s.lamportsFunded.toNat + plan.lamports.toNat := by
  unfold recordFunding at h
  split at h
  · rename_i hsum
    cases h
    exact ⟨rfl, addChecked_eq_none_iff.1 hsum⟩
  · split at h <;> cases h

/-- A run of offers to a new settlement, each planned for and recorded in place.  At most one account
is split, and the settlement has noted nothing, or the rent of that one; the split makes the funded
lamports equal to the total, and whatever is offered later leaves the settlement as it is.  Each account
that is used leaves less than its minimal size above the total.  Recording that nothing is needed changes
nothing, and a plan is refused only because the funding would leave 64 bits, with nothing written. -/
theorem funding_of_offers {terms : SettlementTerms} {config : Config}
    (hcreate : create terms config = .ok s) (offers : List FundingOffer) :
    let current := s.afterOffers offers
    let rents := (s.fundingPlans offers).filterMap FundingPlan.rent?
    (Update.execAll offerInPlace s offers).2 = current ∧
    rents.length ≤ 1 ∧
    (rents = [] → current.splitRentCollector = none ∧ current.splitRentAmount = 0) ∧
    (∀ rent ∈ rents, current.splitRentCollector = some rent.1 ∧ current.splitRentAmount = rent.2 ∧
      current.lamportsFunded = terms.maxTotalClaim) ∧
    (∀ offer plan next, current.fund offer = .ok (plan, next) →
      (plan = .alreadyFunded → next = current) ∧
      (plan ≠ .alreadyFunded → next.lamportsFunded.toNat < terms.maxTotalClaim.toNat
        + (Stake.minimalSize offer.account.rentExemptReserve offer.config.minimumStake).toNat) ∧
      (∀ rent, plan.rent? = some rent → next.lamportsFunded = terms.maxTotalClaim ∧
        next.splitRentCollector = some rent.1 ∧ next.splitRentAmount = rent.2 ∧
        ∀ later, next.afterOffers later = next ∧
          ∀ other, next.planOffer other = .ok .alreadyFunded)) ∧
    current.recordFunding .alreadyFunded = .ok current ∧
    (∀ offer plan e, current.planOffer offer = .ok plan → current.recordFunding plan = .error e →
      e = .arithmeticOverflow .lamportsFunded ∧ current.afterOffer offer = current) ∧
    (∀ plan e after, (recordInPlace plan).exec current = (.error e, after) →
      e = .arithmeticOverflow .lamportsFunded ∧ after = current) := by
  intro current rents
  have htotal : current.maxTotalClaim = terms.maxTotalClaim :=
    (maxTotalClaim_afterOffers s offers).trans (fields_of_create hcreate).2.1
  have hnoted : SplitNoted current rents := (splitNoted_of_create hcreate).run offers
  refine ⟨Update.execAll_snd exec_offerInPlace_snd s offers, hnoted.length_le_one, ?_, ?_, ?_,
    recordFunding_alreadyFunded current, ?_, ?_⟩
  · intro hnone
    rw [hnone] at hnoted
    exact hnoted.of_nil
  · intro rent hmem
    rw [← htotal]
    exact hnoted.of_mem hmem
  · intro offer plan next hfund
    have hstep := fund_eq_ok_iff.1 hfund
    rw [← htotal]
    refine ⟨?_, lamportsFunded_lt_of_step hstep, ?_⟩
    · rintro rfl
      cases hstep with
      | done => rfl
    · intro rent hrent
      have hmem : rent ∈ rents ++ plan.rent?.toList := by simp [hrent]
      obtain ⟨hcollector, hamount, hfunded⟩ := (hnoted.step hstep).of_mem hmem
      have hfull : next.maxTotalClaim ≤ next.lamportsFunded := hfunded ▸ UInt64.le_refl _
      refine ⟨hfunded.trans (maxTotalClaim_of_step hstep), hcollector, hamount, fun later => ?_⟩
      exact ⟨afterOffers_of_funded hfull later, fun other => planOffer_of_funded other hfull⟩
  · intro offer plan e hplan hrecord
    refine ⟨(recordFunding_error hrecord).1, ?_⟩
    rw [afterOffer, fund, hplan]
    simp only [hrecord]
  · intro plan e after hrefused
    rw [exec_recordInPlace, Update.commit_map_eq_error_iff] at hrefused
    exact ⟨(recordFunding_error hrefused.1).1, hrefused.2⟩

end

/-- A small account is taken whole, the next one covers what is missing and is split. -/
theorem funding_of_whole_then_split :
    let terms : SettlementTerms :=
      ⟨Bytes32.zero, Bytes32.zero, 5000, 9, 0, 0, Bytes32.zero⟩
    let config : Config := ⟨Bytes32.zero, Bytes32.zero, 3, 0, 3, 0⟩
    let account (balance : UInt64) : Stake.Account :=
      ⟨Bytes32.zero, some Bytes32.zero, some Bytes32.zero, some Bytes32.zero, none, none, false,
        false, balance, 0, 7, none, .active⟩
    let offer (balance : UInt64) : FundingOffer :=
      ⟨account balance, ⟨Bytes32.zero, Bytes32.zero, Bytes32.zero, 0, 0⟩, Bytes32.zero,
        Bytes32.zero, config⟩
    let offers : List FundingOffer := [offer 1000002007, offer 2000003014]
    ∃ s, create terms config = .ok s ∧
      (s.fundingPlans offers).filterMap FundingPlan.rent? = [(Bytes32.zero, 7)] ∧
      (s.afterOffers offers).splitRentCollector = some Bytes32.zero ∧
      (s.afterOffers offers).splitRentAmount = 7 ∧
      (s.afterOffers offers).lamportsFunded = 5000 := by
  intro terms config account offer offers
  obtain ⟨s, hcreate, hrents⟩ : ∃ s, create terms config = .ok s ∧
      (s.fundingPlans offers).filterMap FundingPlan.rent? = [(Bytes32.zero, 7)] :=
    ⟨_, rfl, by decide +kernel⟩
  obtain ⟨-, -, -, hnoted, -⟩ := funding_of_offers hcreate offers
  obtain ⟨hcollector, hamount, hfunded⟩ := hnoted (Bytes32.zero, 7) (by simp [hrents])
  exact ⟨s, hcreate, hrents, hcollector, hamount, hfunded⟩

end Settlement

end Surety
