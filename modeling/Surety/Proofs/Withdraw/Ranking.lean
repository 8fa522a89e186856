import Mathlib.Data.List.Nodup
import Surety.Proofs.Stake.Order
import Surety.Proofs.Withdraw.Conservation

/-!
# What a plan takes from ranked accounts

The accounts of the bond are ranked by balance and then by address.  One pass over the ranking takes
and leaves accounts one by one, and stops when nothing is missing; what comes out is the longest front
part of the ranking that fits into the amount, and one split off the first account behind it that is
large enough.

* `Ranking` is the order of the accounts; `Ranking.eq` says that different addresses leave one such
  order, `ranking_eligible` that planning works on it.
* `LongestFit` is the longest front part that fits, and `longestFit_takeWhole` finds it.  Balances
  that grow are needed for that, and also an amount that is not zero: a pass that has nothing to look
  for takes nothing, not even an account without lamports.
* `Selection` lists the three outcomes; `selection_of_selectSteps` says that these are all, and
  `selectSteps_of_selection` that there is only one of them each time.
* `plan_of_ranking` is the result for a plan.
-/

namespace Surety

namespace WithdrawRequest

open Stake (Account)

/-! ## The order of the accounts -/

theorem smallerFirst_iff {a b : Account} :
    smallerFirst a b = true ↔
      a.balance < b.balance ∨ a.balance = b.balance ∧ a.address ≤ b.address := by
  simp [smallerFirst]

/-- The given accounts that belong to the bond of a request, by balance and then by address. -/
structure Ranking (request : WithdrawRequest) (bondsAuthority : Address)
    (accounts ranked : List Account) : Prop where
  owned : ranked.Perm (accounts.filter fun account =>
    Stake.passes (Stake.checkOwnedByBond account request.voteAccount bondsAuthority))
  ordered : ranked.Pairwise fun a b =>
    a.balance < b.balance ∨ a.balance = b.balance ∧ a.address ≤ b.address

section

variable {request : WithdrawRequest} {bondsAuthority : Address} {accounts ranked : List Account}

theorem ranking_eligible (request : WithdrawRequest) (bondsAuthority : Address)
    (accounts : List Account) :
    Ranking request bondsAuthority accounts (request.eligible bondsAuthority accounts) where
  owned := List.mergeSort_perm _ _
  ordered :=
    have := Stake.strictTotalOrder_lt
    Stake.pairwise_before_mergeSort (· < ·) (fun _ _ => smallerFirst_iff) _

/-- Accounts with different addresses are ranked in one way. -/
theorem Ranking.eq {other : List Account} (hdistinct : (accounts.map (·.address)).Nodup)
    (h : Ranking request bondsAuthority accounts ranked)
    (hother : Ranking request bondsAuthority accounts other) : ranked = other := by
  have hlisted : ∀ account ∈ ranked, account ∈ accounts := by
    intro account haccount
    exact (List.mem_filter.1 (h.owned.mem_iff.1 haccount)).1
  have := Stake.strictTotalOrder_lt
  exact Stake.eq_of_perm_of_before (· < ·) hdistinct hlisted (h.owned.trans hother.owned.symm)
    h.ordered hother.ordered

theorem Ranking.balances (h : Ranking request bondsAuthority accounts ranked) :
    ranked.Pairwise fun a b => a.balance ≤ b.balance := by
  refine h.ordered.imp ?_
  rintro a b (hlt | ⟨hsame, -⟩)
  · exact UInt64.le_of_lt hlt
  · exact hsame ▸ UInt64.le_refl _

end

/-! ## The longest front part that fits -/

/-- The longest front part of a list of accounts whose lamports fit into an amount. -/
structure LongestFit (amount : Nat) (accounts taken : List Account) : Prop where
  front : taken <+: accounts
  fits : lamportsOf taken ≤ amount
  longest : ∀ other, other <+: accounts → lamportsOf other ≤ amount → other <+: taken

section

variable {amount : Nat} {account : Account} {accounts rest taken : List Account}

theorem LongestFit.unique {other : List Account} (h : LongestFit amount accounts taken)
    (hother : LongestFit amount accounts other) : taken = other :=
  (hother.longest taken h.front h.fits).eq_of_length_le
    (h.longest other hother.front hother.fits).length_le

/-- An account that does not fit keeps everything behind it out. -/
theorem LongestFit.of_lt (h : amount < account.balance.toNat) (rest : List Account) :
    LongestFit amount (account :: rest) [] where
  front := List.nil_prefix
  fits := Nat.zero_le _
  longest other hother hfits := by
    cases other with
    | nil => exact List.nil_prefix
    | cons first others =>
        obtain ⟨rfl, -⟩ := List.cons_prefix_cons.1 hother
        rw [lamportsOf_cons] at hfits
        omega

/-- An account that fits is followed by the longest part that fits into what it leaves. -/
theorem LongestFit.cons {total : Nat} (h : LongestFit amount rest taken)
    (htotal : account.balance.toNat + amount = total) :
    LongestFit total (account :: rest) (account :: taken) where
  front := List.cons_prefix_cons.2 ⟨rfl, h.front⟩
  fits := htotal ▸ Nat.add_le_add_left h.fits _
  longest other hother hfits := by
    cases other with
    | nil => exact List.nil_prefix
    | cons first others =>
        obtain ⟨rfl, hothers⟩ := List.cons_prefix_cons.1 hother
        rw [lamportsOf_cons] at hfits
        exact List.cons_prefix_cons.2 ⟨rfl, h.longest others hothers (by omega)⟩

end

/-- When no account fits, all are left over. -/
theorem takeWhole_of_lt {needed : UInt64} {accounts : List Account} (hneeded : needed ≠ 0)
    (h : ∀ account ∈ accounts, needed < account.balance) :
    takeWhole needed accounts = ([], accounts) := by
  induction accounts with
  | nil => rw [takeWhole_nil]
  | cons account rest ih =>
      rw [takeWhole_cons_of_lt hneeded (h account List.mem_cons_self),
        ih fun other hother => h other (List.mem_cons_of_mem _ hother)]

/-- Of accounts with growing balances the pass takes the longest front part that fits, and it leaves
the others as long as something is missing. -/
theorem longestFit_takeWhole {needed : UInt64} {accounts : List Account}
    (hordered : accounts.Pairwise fun a b => a.balance ≤ b.balance)
    (hpositive : needed = 0 → ∀ account ∈ accounts, 0 < account.balance) :
    LongestFit needed.toNat accounts (takeWhole needed accounts).1 ∧
      (lamportsOf (takeWhole needed accounts).1 < needed.toNat →
        (takeWhole needed accounts).1 ++ (takeWhole needed accounts).2 = accounts) := by
  induction accounts generalizing needed with
  | nil =>
      rw [takeWhole_nil]
      exact ⟨⟨List.nil_prefix, Nat.zero_le _, fun _ hother _ => hother⟩, fun _ => rfl⟩
  | cons account rest ih =>
      obtain ⟨hfirst, hrest⟩ := List.pairwise_cons.1 hordered
      by_cases hneeded : needed = 0
      · have hlt := UInt64.lt_iff_toNat_lt.1 (hpositive hneeded account List.mem_cons_self)
        rw [hneeded, takeWhole_zero]
        exact ⟨.of_lt hlt rest, fun h => absurd h (Nat.lt_irrefl _)⟩
      · by_cases hfits : account.balance ≤ needed
        · -- nothing is missing afterwards only if the account had lamports, and so has the rest then
          have hstill : needed - account.balance = 0 → ∀ other ∈ rest, 0 < other.balance := by
            intro hdone other hother
            have hleft := UInt64.toNat_sub_of_le _ _ hfits
            have hgrows := UInt64.le_iff_toNat_le.1 (hfirst other hother)
            have hsome : needed.toNat ≠ 0 := fun h => hneeded (UInt64.toNat_inj.1 h)
            rw [hdone, UInt64.toNat_zero] at hleft
            rw [UInt64.lt_iff_toNat_lt, UInt64.toNat_zero]
            rw [UInt64.le_iff_toNat_le] at hfits
            omega
          obtain ⟨hlongest, hall⟩ := ih hrest hstill
          have hsum : account.balance.toNat + (needed - account.balance).toNat = needed.toNat := by
            rw [UInt64.toNat_sub_of_le _ _ hfits]
            rw [UInt64.le_iff_toNat_le] at hfits
            omega
          rw [takeWhole_cons_of_le hneeded hfits]
          refine ⟨hlongest.cons hsum, fun hmissing => ?_⟩
          rw [lamportsOf_cons] at hmissing
          rw [List.cons_append, hall (by omega)]
        · have hover := UInt64.not_le.1 hfits
          have hnone : takeWhole needed (account :: rest) = ([], account :: rest) := by
            refine takeWhole_of_lt hneeded fun other hother => ?_
            rcases List.mem_cons.1 hother with rfl | hother
            · exact hover
            · exact UInt64.lt_of_lt_of_le hover (hfirst other hother)
          rw [hnone]
          exact ⟨.of_lt (UInt64.lt_iff_toNat_lt.1 hover) rest, fun _ => rfl⟩

/-! ## The outcomes of a selection -/

/-- What is selected from ranked accounts for an amount.  The longest front part that fits is taken
whole; what it leaves missing is split off the first account behind it that is large enough, or the
selection is refused because of the first account behind it. -/
inductive Selection (amount : UInt64) (config : Config) (ranked : List Account) :
    Result (List WithdrawStep × UInt64) → Prop
  | whole {taken : List Account} {total : UInt64}
      (hlongest : LongestFit amount.toNat ranked taken)
      (hdone : lamportsOf taken = amount.toNat ∨ taken = ranked)
      (htotal : total.toNat = lamportsOf taken) :
      Selection amount config ranked (.ok (taken.map wholeStep, total))
  | split {taken before after : List Account} {account : Account} {missing kept : UInt64}
      (hlongest : LongestFit amount.toNat ranked taken)
      (hmissing : lamportsOf taken + missing.toNat = amount.toNat) (hpositive : missing ≠ 0)
      (hranked : ranked = taken ++ (before ++ account :: after))
      (hbefore : ∀ other ∈ before, ¬other.Divisible config missing.toNat)
      (hdivisible : account.Divisible config missing.toNat)
      (hkept : missing.toNat + kept.toNat = account.balance.toNat) :
      Selection amount config ranked
        (.ok (taken.map wholeStep ++ [.split account.address missing kept], amount))
  | refused {taken rest : List Account} {first : Account} {missing : UInt64}
      (hlongest : LongestFit amount.toNat ranked taken)
      (hmissing : lamportsOf taken + missing.toNat = amount.toNat) (hpositive : missing ≠ 0)
      (hranked : ranked = taken ++ first :: rest)
      (hnone : ∀ other ∈ first :: rest, ¬other.Divisible config missing.toNat) :
      Selection amount config ranked
        (.error (.notBigEnoughToSplit first.address first.balance missing
          (Stake.minimalSize first.rentExemptReserve config.configuredMinimum)))

section

variable {amount : UInt64} {config : Config} {ranked : List Account}
  {result : Result (List WithdrawStep × UInt64)}

/-- The parts of a selection from accounts with growing balances: the longest front part that fits,
what it leaves missing, and, as long as that is something, the accounts behind it. -/
theorem exists_selectSteps_eq (hamount : amount ≠ 0)
    (hordered : ranked.Pairwise fun a b => a.balance ≤ b.balance) :
    ∃ taken left missing, LongestFit amount.toNat ranked taken ∧
      lamportsOf taken + missing.toNat = amount.toNat ∧
      (missing ≠ 0 → ranked = taken ++ left) ∧
      (totalBalance taken).toNat = lamportsOf taken ∧
      ∀ minStake, selectSteps amount minStake ranked =
        match finalSplit missing minStake left with
        | .error e => .error e
        | .ok none => .ok (taken.map wholeStep, totalBalance taken)
        | .ok (some step) => .ok (taken.map wholeStep ++ [step], amount) := by
  obtain ⟨hlongest, hall⟩ :=
    longestFit_takeWhole hordered fun hzero => absurd hzero hamount
  have hwithin := totalBalance_takeWhole_le amount ranked
  have htaken := totalBalance_takeWhole_toNat amount ranked
  have hselect := fun minStake => selectSteps.eq_def amount minStake ranked
  generalize takeWhole amount ranked = selection at hlongest hall hwithin htaken hselect
  obtain ⟨taken, left⟩ := selection
  dsimp only at hlongest hall hwithin htaken hselect
  have hmissing : lamportsOf taken + (amount - totalBalance taken).toNat = amount.toNat := by
    rw [UInt64.toNat_sub_of_le _ _ hwithin, htaken]
    have hfits := hlongest.fits
    omega
  have htotal : totalBalance taken + (amount - totalBalance taken) = amount := by
    apply UInt64.toNat_inj.1
    rw [UInt64.toNat_add, htaken, hmissing, Nat.mod_eq_of_lt amount.toNat_lt]
  rw [htotal] at hselect
  refine ⟨taken, left, amount - totalBalance taken, hlongest, hmissing, fun hopen => ?_, htaken,
    hselect⟩
  have hpositive : (amount - totalBalance taken).toNat ≠ 0 := fun h => hopen (UInt64.toNat_inj.1 h)
  exact (hall (by omega)).symm

/-- Every selection from accounts with growing balances is one of the three outcomes. -/
theorem selection_of_selectSteps (hamount : amount ≠ 0)
    (hordered : ranked.Pairwise fun a b => a.balance ≤ b.balance)
    (h : selectSteps amount config.minimumStake ranked = result) :
    Selection amount config ranked result := by
  obtain ⟨taken, left, missing, hlongest, hmissing, hbehind, htaken, hselect⟩ :=
    exists_selectSteps_eq hamount hordered
  rw [hselect] at h
  split at h
  · rename_i e hrefused
    obtain ⟨hopen, first, rest, rfl, hnone, rfl⟩ := finalSplit_eq_error_iff.1 hrefused
    rw [← h, Stake.minimalSize_minimumStake]
    refine .refused hlongest hmissing hopen (hbehind hopen) fun other hother hdivisible => ?_
    exact hnone other hother (Stake.passes_checkSplittable_minimumStake_iff.2 hdivisible)
  · rename_i hnone
    rw [← h]
    refine .whole hlongest ?_ htaken
    by_cases hopen : missing = 0
    · rw [hopen] at hmissing
      exact .inl hmissing
    · have hleft : left = [] := (finalSplit_eq_none_iff.1 hnone).resolve_left hopen
      exact .inr (by rw [hbehind hopen, hleft, List.append_nil])
  · rename_i step hstep
    obtain ⟨hopen, before, account, after, rfl, hbefore, hpasses, rfl⟩ :=
      finalSplit_eq_some_iff.1 hstep
    have hdivisible := Stake.passes_checkSplittable_minimumStake_iff.1 hpasses
    have hholds : missing.toNat ≤ account.balance.toNat := by
      have hsize := hdivisible.1
      omega
    have hkept : missing.toNat + (account.balance - missing).toNat = account.balance.toNat := by
      rw [UInt64.toNat_sub_of_le _ _ (UInt64.le_iff_toNat_le.2 hholds)]
      omega
    rw [← h]
    refine .split hlongest hmissing hopen (hbehind hopen) (fun other hother hother' => ?_) hdivisible
      hkept
    exact hbefore other hother (Stake.passes_checkSplittable_minimumStake_iff.2 hother')

/-- Each of the three outcomes is the selection: there is only one longest front part, and only one
first account behind it that is large enough. -/
theorem selectSteps_of_selection (hamount : amount ≠ 0)
    (hordered : ranked.Pairwise fun a b => a.balance ≤ b.balance)
    (h : Selection amount config ranked result) :
    selectSteps amount config.minimumStake ranked = result := by
  obtain ⟨taken, left, missing, hlongest, hmissing, hbehind, htaken, hselect⟩ :=
    exists_selectSteps_eq hamount hordered
  rw [hselect]
  -- in each case the front part is the one that was taken, so the same is missing and left
  cases h with
  | @whole taken' total hlongest' hdone htotal =>
      obtain rfl : taken' = taken := hlongest'.unique hlongest
      have hnothing : missing = 0 ∨ left = [] := by
        by_cases hopen : missing = 0
        · exact .inl hopen
        · have hpositive : missing.toNat ≠ 0 := fun h => hopen (UInt64.toNat_inj.1 h)
          have hall : taken' = taken' ++ left :=
            (hdone.resolve_left (by omega)).trans (hbehind hopen)
          exact .inr (List.self_eq_append_right.1 hall)
      have hsame : totalBalance taken' = total := UInt64.toNat_inj.1 (htaken.trans htotal.symm)
      rw [finalSplit_eq_none_iff.2 hnothing, hsame]
  | @split taken' before after account missing' kept hlongest' hmissing' hpositive hranked hbefore
      hdivisible hkept =>
      obtain rfl : taken' = taken := hlongest'.unique hlongest
      obtain rfl : missing' = missing := UInt64.toNat_inj.1 (by omega)
      obtain rfl : left = before ++ account :: after :=
        List.append_cancel_left ((hbehind hpositive).symm.trans hranked)
      have hstep : finalSplit missing' config.minimumStake (before ++ account :: after)
          = .ok (some (splitStep missing' account)) := by
        refine finalSplit_eq_some_iff.2 ⟨hpositive, before, account, after, rfl, ?_,
          Stake.passes_checkSplittable_minimumStake_iff.2 hdivisible, rfl⟩
        intro other hother hpasses
        exact hbefore other hother (Stake.passes_checkSplittable_minimumStake_iff.1 hpasses)
      have hrest : account.balance - missing' = kept := by
        apply UInt64.toNat_inj.1
        rw [UInt64.toNat_sub_of_le _ _ (UInt64.le_iff_toNat_le.2 (by omega))]
        omega
      rw [hstep, splitStep, hrest]
  | @refused taken' rest first missing' hlongest' hmissing' hpositive hranked hnone =>
      obtain rfl : taken' = taken := hlongest'.unique hlongest
      obtain rfl : missing' = missing := UInt64.toNat_inj.1 (by omega)
      obtain rfl : left = first :: rest :=
        List.append_cancel_left ((hbehind hpositive).symm.trans hranked)
      have hrefused : finalSplit missing' config.minimumStake (first :: rest)
          = .error (.notBigEnoughToSplit first.address first.balance missing'
            (Stake.minimalSize first.rentExemptReserve config.minimumStake)) := by
        refine finalSplit_eq_error_iff.2 ⟨hpositive, first, rest, rfl, ?_, rfl⟩
        intro other hother hpasses
        exact hnone other hother (Stake.passes_checkSplittable_minimumStake_iff.1 hpasses)
      rw [hrefused, Stake.minimalSize_minimumStake]

end

/-! ## Plans -/

/-- Once the lockup is over, and when something remains and some account belongs to the bond, a plan
is made of the outcome of the selection. -/
theorem plan_of_open {request : WithdrawRequest} {accounts : List Account}
    {context : WithdrawContext}
    (hlockup : request.withdrawableFrom context.config ≤ context.clock.epoch)
    (hremaining : request.remaining ≠ 0)
    (hsome : request.eligible context.bondsAuthority accounts ≠ []) :
    request.plan accounts context
      = (selectSteps request.remaining context.config.minimumStake
          (request.eligible context.bondsAuthority accounts)).map fun (steps, total) =>
            request.planOf context steps total := by
  have hpassed : request.checkLockup context.config context.clock = .ok () :=
    if_neg (UInt64.not_lt.2 hlockup)
  rw [plan_eq, hpassed]
  dsimp only
  rw [if_neg hremaining, if_neg (by simpa using hsome)]
  cases selectSteps request.remaining context.config.minimumStake
    (request.eligible context.bondsAuthority accounts) <;> rfl

/-- What is answered once the lockup is over, as long as something remains and some account belongs to
the bond: with the accounts of the bond ranked by balance and then by address, a plan of exactly the
steps that `Selection` lists for what remains, or the refusal that it lists. -/
theorem plan_of_ranking {request : WithdrawRequest} {accounts ranked : List Account}
    {context : WithdrawContext}
    (hlockup : request.withdrawableFrom context.config ≤ context.clock.epoch)
    (hremaining : 0 < request.remaining) (hdistinct : (accounts.map (·.address)).Nodup)
    (hranking : Ranking request context.bondsAuthority accounts ranked) (hsome : ranked ≠ [])
    (result : Result WithdrawPlan) :
    request.plan accounts context = result ↔
      ∃ selected, Selection request.remaining context.config ranked selected ∧
        result = selected.map fun (steps, total) => request.planOf context steps total := by
  have hsame : ranked = request.eligible context.bondsAuthority accounts :=
    hranking.eq hdistinct (ranking_eligible request context.bondsAuthority accounts)
  have hmissing : request.remaining ≠ 0 := (UInt64.ne_of_lt hremaining).symm
  have hordered := hranking.balances
  rw [hsame] at hsome hordered ⊢
  rw [plan_of_open hlockup hmissing hsome]
  constructor
  · intro h
    exact ⟨_, selection_of_selectSteps hmissing hordered rfl, h.symm⟩
  · rintro ⟨selected, hselection, rfl⟩
    rw [selectSteps_of_selection hmissing hordered hselection]

/-- Two accounts fit, the next one has too large a reserve to be split, and the last one is split; an
account of another validator is passed over. -/
theorem plan_splits_second_candidate :
    let config : Config := ⟨Bytes32.zero, Bytes32.zero, 3, 0, 3, 0⟩
    let context : WithdrawContext :=
      ⟨config, ⟨4, 0, 0⟩, Bytes32.zero, Bytes32.zero, Bytes32.zero⟩
    let request : WithdrawRequest :=
      ⟨Bytes32.zero, Bytes32.zero, 1, 0, 6000000000, 1000000000, 0⟩
    let address (n : UInt8) : Address := ⟨List.replicate 32 n, List.length_replicate⟩
    let account (n : UInt8) (voter : Address) (balance reserve : UInt64) : Account :=
      ⟨address n, some Bytes32.zero, some Bytes32.zero, some voter, none, none, false, false,
        balance, 0, reserve, none, .active⟩
    let accounts : List Account :=
      [account 5 (address 0) 4000000000 7, account 4 (address 1) 2000000000 7,
        account 3 (address 0) 3000000000 1000000000, account 2 (address 0) 1000000000 7,
        account 1 (address 0) 2500000000 7]
    let ranked : List Account :=
      [account 2 (address 0) 1000000000 7, account 1 (address 0) 2500000000 7,
        account 3 (address 0) 3000000000 1000000000, account 5 (address 0) 4000000000 7]
    request.withdrawableFrom context.config ≤ context.clock.epoch ∧ 0 < request.remaining ∧
      (accounts.map (·.address)).Nodup ∧
      Ranking request context.bondsAuthority accounts ranked ∧ ranked ≠ [] ∧
      request.plan accounts context = .ok (request.planOf context
        [.whole (address 2) 1000000000, .whole (address 1) 2500000000,
          .split (address 5) 1500000000 2500000000] 5000000000) := by
  intro config context request address account accounts ranked
  have hlockup : request.withdrawableFrom context.config ≤ context.clock.epoch := by decide
  have hremaining : 0 < request.remaining := by decide
  have hdistinct : (accounts.map (·.address)).Nodup := by decide
  have hranking : Ranking request context.bondsAuthority accounts ranked :=
    ⟨by decide +kernel, by decide +kernel⟩
  have hsome : ranked ≠ [] := List.cons_ne_nil _ _
  refine ⟨hlockup, hremaining, hdistinct, hranking, hsome, ?_⟩
  have hselected : selectSteps request.remaining context.config.minimumStake ranked
      = .ok ([.whole (address 2) 1000000000, .whole (address 1) 2500000000,
        .split (address 5) 1500000000 2500000000], 5000000000) := by
    decide +kernel
  have hselection := selection_of_selectSteps (UInt64.ne_of_lt hremaining).symm hranking.balances
    hselected
  exact (plan_of_ranking hlockup hremaining hdistinct hranking hsome _).2 ⟨_, hselection, rfl⟩

end WithdrawRequest

end Surety
