import Surety.Proofs.Stake.Consolidation

/-!
# Executing the merges of a plan

Which accounts can be merged is settled once for all accounts that a plan names: merging is allowed in
both directions, and from account to account.  A merge changes what its destination holds and nothing that
is checked, so the merges of a plan can be executed in any order, into any of the accounts, and after one
another.

* `checkMergeable_comm` and `checkMergeable_trans` make mergeable accounts a class;
  `checkMergeable_holding` says that the class does not depend on what the accounts hold.
* `Merge.execute?` executes one merge, `executeMerges?` one after another; what a destination holds
  afterwards is left open.  `Nesting` lists the merges that can be asked for: a merge takes two accounts
  that are left and takes its source away.
* `Fusible` is what every execution keeps: `Fusible.execute?` for one merge, `Fusible.executeMerges?` for
  all.
* `merges_in_any_nesting` is the result for the plans of a list.
-/

namespace Surety.Stake

/-! ## Mergeable accounts -/

/-- An account that holds another balance and another stake. -/
def Account.holding (account : Account) (balance staked : UInt64) : Account :=
  { account with balance := balance, staked := staked }

section

variable {a b c : Account}

theorem checkMergeable_comm : checkMergeable a b = .ok () ↔ checkMergeable b a = .ok () := by
  have hswap : ∀ {a b : Account}, checkMergeable a b = .ok () → checkMergeable b a = .ok () := by
    intro a b h
    obtain ⟨haddress, ha, hb, hresting, hstage, hvoter, hlockup, hstaker, hwithdrawer⟩ :=
      checkMergeable_eq_ok_iff.1 h
    exact checkMergeable_eq_ok_iff.2 ⟨haddress.symm, hb, ha, hstage ▸ hresting, hstage.symm,
      hvoter.symm, hlockup.symm, hstaker.symm, hwithdrawer.symm⟩
  exact ⟨hswap, hswap⟩

/-- Two different accounts that can be merged with a third one can be merged with each other. -/
theorem checkMergeable_trans (hab : checkMergeable a b = .ok ()) (hbc : checkMergeable b c = .ok ())
    (haddress : a.address ≠ c.address) : checkMergeable a c = .ok () := by
  obtain ⟨-, ha, -, hresting, hstage, hvoter, hlockup, hstaker, hwithdrawer⟩ :=
    checkMergeable_eq_ok_iff.1 hab
  obtain ⟨-, -, hc, -, hstage', hvoter', hlockup', hstaker', hwithdrawer'⟩ :=
    checkMergeable_eq_ok_iff.1 hbc
  exact checkMergeable_eq_ok_iff.2 ⟨haddress, ha, hc, hresting, hstage.trans hstage',
    hvoter.trans hvoter', hlockup.trans hlockup', hstaker.trans hstaker',
    hwithdrawer.trans hwithdrawer'⟩

/-- Whether accounts can be merged does not depend on what they hold. -/
theorem checkMergeable_holding (h : checkMergeable a b = .ok ())
    (balance staked balance' staked' : UInt64) :
    checkMergeable (a.holding balance staked) (b.holding balance' staked') = .ok () := by
  obtain ⟨haddress, -, -, hresting, hstage, hrest⟩ := checkMergeable_eq_ok_iff.1 h
  exact checkMergeable_eq_ok_iff.2 ⟨haddress, Account.isTransient_of_resting hresting,
    Account.isTransient_of_resting (hstage ▸ hresting), hresting, hstage, hrest⟩

end

/-! ## Executing merges -/

/-- A merge of two accounts, given by their addresses. -/
structure Merge where
  destination : Address
  source : Address
  deriving DecidableEq

/-- The account at an address. -/
def accountAt? (left : List Account) (address : Address) : Option Account :=
  left.find? fun account => account.address == address

/-- The account after a merge into the one at an address, which holds the given balance and stake then. -/
def Account.receive (destination : Address) (holding : UInt64 × UInt64) (account : Account) : Account :=
  if account.address = destination then account.holding holding.1 holding.2 else account

/-- Execute a merge among the accounts that are left.  Both accounts have to be there and to pass the
check; then the source is gone, and the destination holds the balance and the stake given for the two. -/
def Merge.execute? (holdings : Account → Account → UInt64 × UInt64) (merge : Merge)
    (left : List Account) : Option (List Account) :=
  match accountAt? left merge.destination, accountAt? left merge.source with
  | some destination, some source =>
      if passes (checkMergeable destination source) then
        some ((left.filter fun account => account.address != merge.source).map
          (Account.receive merge.destination (holdings destination source)))
      else none
  | _, _ => none

/-- Execute merges one after another. -/
def executeMerges? (holdings : Account → Account → UInt64 × UInt64) :
    List Merge → List Account → Option (List Account)
  | [], left => some left
  | merge :: later, left => (merge.execute? holdings left).bind (executeMerges? holdings later)

/-- The merges of some named accounts that can be asked for one after another: each takes two different
accounts that are left, whatever was merged into them before. -/
inductive Nesting : (named : List Address) → List Merge → Prop
  | done (named : List Address) : Nesting named []
  | merge {named : List Address} {merge : Merge} {later : List Merge}
      (hdestination : merge.destination ∈ named) (hsource : merge.source ∈ named)
      (hdifferent : merge.destination ≠ merge.source)
      (hlater : Nesting (named.filter fun address => address != merge.source) later) :
      Nesting named (merge :: later)

/-- The named accounts are left, and any two of them can be merged. -/
structure Fusible (named : List Address) (left : List Account) : Prop where
  distinct : (left.map (·.address)).Nodup
  listed : ∀ address ∈ named, ∃ account ∈ left, account.address = address
  mergeable : ∀ a ∈ left, ∀ b ∈ left, a.address ∈ named → b.address ∈ named →
    a.address ≠ b.address → checkMergeable a b = .ok ()

section

variable {named : List Address} {left : List Account} {merge : Merge} {merges : List Merge}
  {account : Account}

theorem accountAt?_eq_some (hdistinct : (left.map (·.address)).Nodup) (haccount : account ∈ left) :
    accountAt? left account.address = some account := by
  have hfound : (accountAt? left account.address).isSome = true :=
    List.find?_isSome.2 ⟨account, haccount, beq_self_eq_true _⟩
  obtain ⟨found, hfound⟩ := Option.isSome_iff_exists.1 hfound
  obtain ⟨hmatch, -⟩ := List.find?_eq_some_iff_append.1 hfound
  have hsame : found = account := List.inj_on_of_nodup_map hdistinct
    (List.mem_of_find?_eq_some hfound) haccount (beq_iff_eq.1 hmatch)
  rw [hfound, hsame]

theorem Account.receive_eq_holding (destination : Address) (holding : UInt64 × UInt64)
    (account : Account) :
    ∃ balance staked, account.receive destination holding = account.holding balance staked := by
  unfold receive
  split
  · exact ⟨_, _, rfl⟩
  · exact ⟨account.balance, account.staked, rfl⟩

@[simp] theorem Account.receive_address (destination : Address) (holding : UInt64 × UInt64)
    (account : Account) : (account.receive destination holding).address = account.address := by
  obtain ⟨_, _, heq⟩ := account.receive_eq_holding destination holding
  rw [heq, Account.holding]

theorem addresses_receive (left : List Account) (merge : Merge) (holding : UInt64 × UInt64) :
    ((left.filter fun account => account.address != merge.source).map
        (Account.receive merge.destination holding)).map (·.address)
      = (left.map (·.address)).filter fun address => address != merge.source := by
  rw [List.map_map, List.filter_map]
  exact List.map_congr_left fun account _ => account.receive_address _ _

/-- Without the source, and whatever the destination holds then, the named accounts can still be merged. -/
theorem Fusible.receive (h : Fusible named left) (merge : Merge) (holding : UInt64 × UInt64) :
    Fusible (named.filter fun address => address != merge.source)
      ((left.filter fun account => account.address != merge.source).map
        (Account.receive merge.destination holding)) where
  distinct := by
    rw [addresses_receive]
    exact h.distinct.filter _
  listed address hnamed := by
    obtain ⟨hnamed, hleft⟩ := List.mem_filter.1 hnamed
    obtain ⟨account, haccount, rfl⟩ := h.listed address hnamed
    exact ⟨_, List.mem_map_of_mem (List.mem_filter.2 ⟨haccount, hleft⟩), account.receive_address _ _⟩
  mergeable _ ha _ hb hnamed hnamed' hne := by
    obtain ⟨before, hbefore, rfl⟩ := List.mem_map.1 ha
    obtain ⟨before', hbefore', rfl⟩ := List.mem_map.1 hb
    simp only [Account.receive_address] at hnamed hnamed' hne
    have hmergeable := h.mergeable _ (List.mem_of_mem_filter hbefore) _
      (List.mem_of_mem_filter hbefore') (List.mem_of_mem_filter hnamed)
      (List.mem_of_mem_filter hnamed') hne
    obtain ⟨balance, staked, heq⟩ := before.receive_eq_holding merge.destination holding
    obtain ⟨balance', staked', heq'⟩ := before'.receive_eq_holding merge.destination holding
    rw [heq, heq']
    exact checkMergeable_holding hmergeable balance staked balance' staked'

/-- A merge of two named accounts is executed.  The other accounts stay as they are, and all named ones
but the source can still be merged. -/
theorem Fusible.execute? (holdings : Account → Account → UInt64 × UInt64) (h : Fusible named left)
    (hdestination : merge.destination ∈ named) (hsource : merge.source ∈ named)
    (hdifferent : merge.destination ≠ merge.source) :
    ∃ left', merge.execute? holdings left = some left' ∧
      Fusible (named.filter fun address => address != merge.source) left' ∧
      left'.map (·.address)
        = (left.map (·.address)).filter (fun address => address != merge.source) ∧
      ∀ account ∈ left, account.address ∉ named → account ∈ left' := by
  obtain ⟨destination, hmem, haddress⟩ := h.listed _ hdestination
  obtain ⟨source, hmem', haddress'⟩ := h.listed _ hsource
  have hfound : accountAt? left merge.destination = some destination :=
    haddress ▸ accountAt?_eq_some h.distinct hmem
  have hfound' : accountAt? left merge.source = some source :=
    haddress' ▸ accountAt?_eq_some h.distinct hmem'
  have hpasses : passes (checkMergeable destination source) = true := by
    refine passes_iff.2 (h.mergeable _ hmem _ hmem' (haddress ▸ hdestination)
      (haddress' ▸ hsource) ?_)
    rwa [haddress, haddress']
  refine ⟨_, ?_, h.receive merge (holdings destination source), addresses_receive left merge _, ?_⟩
  · rw [Merge.execute?, hfound, hfound']
    exact if_pos hpasses
  · intro account haccount hforeign
    have hother : account.address ≠ merge.destination := fun heq => hforeign (heq ▸ hdestination)
    have hleft : account.address ≠ merge.source := fun heq => hforeign (heq ▸ hsource)
    exact List.mem_map.2
      ⟨account, List.mem_filter.2 ⟨haccount, bne_iff_ne.2 hleft⟩, if_neg hother⟩

theorem filter_not_source (addresses : List Address) (merge : Merge) (later : List Merge) :
    (addresses.filter fun address => address != merge.source).filter
        (fun address => decide (address ∉ later.map (·.source)))
      = addresses.filter fun address =>
          decide (address ∉ (merge :: later).map (·.source)) := by
  rw [List.filter_filter]
  refine List.filter_congr fun address _ => ?_
  rw [Bool.eq_iff_iff, Bool.and_eq_true, decide_eq_true_eq, bne_iff_ne, decide_eq_true_eq,
    List.map_cons, List.mem_cons, not_or, and_comm]

/-- Whatever merges of named accounts are asked for, none is refused.  Only the sources are gone, accounts
that are not named stay as they are, and the named ones that are left can still be merged. -/
theorem Fusible.executeMerges? (holdings : Account → Account → UInt64 × UInt64)
    (h : Fusible named left) (hmerges : Nesting named merges) :
    ∃ left', executeMerges? holdings merges left = some left' ∧
      Fusible (named.filter fun address => decide (address ∉ merges.map (·.source))) left' ∧
      left'.map (·.address)
        = (left.map (·.address)).filter
          (fun address => decide (address ∉ merges.map (·.source))) ∧
      ∀ account ∈ left, account.address ∉ named → account ∈ left' := by
  induction hmerges generalizing left with
  | done named =>
      have hall : ∀ addresses : List Address,
          addresses.filter (fun address => decide (address ∉ ([] : List Merge).map (·.source)))
            = addresses := fun addresses =>
        List.filter_eq_self.2 fun _ _ => decide_eq_true List.not_mem_nil
      rw [hall, hall]
      exact ⟨left, rfl, h, rfl, fun _ haccount _ => haccount⟩
  | @merge named merge later hdestination hsource hdifferent _ ih =>
      obtain ⟨next, hnext, hfusible, haddresses, hforeign⟩ :=
        h.execute? holdings hdestination hsource hdifferent
      obtain ⟨left', hrun, hfusible', haddresses', hforeign'⟩ := ih hfusible
      rw [filter_not_source] at hfusible'
      rw [haddresses, filter_not_source] at haddresses'
      refine ⟨left', ?_, hfusible', haddresses', fun account haccount hnot => ?_⟩
      · rw [Stake.executeMerges?, hnext]
        exact hrun
      · exact hforeign' account (hforeign account haccount hnot) fun hnamed =>
          hnot (List.mem_of_mem_filter hnamed)

end

/-! ## The merges of a plan -/

section

variable {bondsAuthority : Address} {accounts : List Account} {plan : MergePlan} {a b : Account}

/-- Merging each source into the destination can be asked for in any order. -/
theorem nesting_of_perm (hnamed : plan.named.Nodup) {order : List Address}
    (horder : order.Perm plan.sources) :
    Nesting plan.named (order.map (Merge.mk plan.destination)) := by
  obtain ⟨hdestination, hsources⟩ := List.nodup_cons.1 hnamed
  -- what is left to be merged is named, different from the destination, and different from what was
  have hgeneral : ∀ (order named : List Address), plan.destination ∈ named → order ⊆ named →
      plan.destination ∉ order → order.Nodup →
      Nesting named (order.map (Merge.mk plan.destination)) := by
    intro order
    induction order with
    | nil => exact fun named _ _ _ _ => .done named
    | cons source rest ih =>
        intro named hmem hsub hout hnodup
        obtain ⟨hsource, hrest⟩ := List.cons_subset.1 hsub
        obtain ⟨hdifferent, hout⟩ := not_or.1 (mt List.mem_cons.2 hout)
        obtain ⟨hfresh, hnodup⟩ := List.nodup_cons.1 hnodup
        refine .merge hmem hsource hdifferent (ih _ ?_ (fun next hnext => ?_) hout hnodup)
        · exact List.mem_filter.2 ⟨hmem, bne_iff_ne.2 hdifferent⟩
        · refine List.mem_filter.2 ⟨hrest hnext, bne_iff_ne.2 ?_⟩
          rintro rfl
          exact hfresh hnext
  exact hgeneral order plan.named List.mem_cons_self
    (fun source hsource => List.mem_cons_of_mem _ (horder.mem_iff.1 hsource))
    (mt horder.mem_iff.1 hdestination) (horder.nodup_iff.2 hsources)

/-- An account that a plan names is the destination or can be merged into it. -/
theorem exists_destination (hdistinct : (accounts.map (·.address)).Nodup)
    (hplan : plan ∈ planMerges accounts bondsAuthority) :
    ∃ destination : Account, ∀ account ∈ accounts, account.address ∈ plan.named →
      account = destination ∨ checkMergeable destination account = .ok () := by
  obtain ⟨key, -, hmade⟩ := mem_planMerges_iff.1 hplan
  obtain ⟨destination, others, hgroup, -, hdestination, hsources⟩ := mergePlan?_eq_some_iff.1 hmade
  have hlisted : ∀ member ∈ destination :: others, member ∈ accounts := fun member hmember =>
    (mem_mergeGroup_iff.1 (hgroup ▸ hmember)).1
  refine ⟨destination, fun account haccount hnamed => ?_⟩
  rw [MergePlan.named, hdestination, hsources, List.mem_cons, List.mem_map] at hnamed
  rcases hnamed with haddress | ⟨source, hsource, haddress⟩
  · exact .inl (List.inj_on_of_nodup_map hdistinct haccount (hlisted _ List.mem_cons_self) haddress)
  · obtain ⟨hmember, hpasses⟩ := List.mem_filter.1 hsource
    have hsame : source = account := List.inj_on_of_nodup_map hdistinct
      (hlisted _ (List.mem_cons_of_mem _ hmember)) haccount haddress
    exact .inr (hsame ▸ passes_iff.1 hpasses)

/-- Any two accounts that a plan names can be merged. -/
theorem checkMergeable_of_named (hdistinct : (accounts.map (·.address)).Nodup)
    (hplan : plan ∈ planMerges accounts bondsAuthority) (ha : a ∈ accounts) (hb : b ∈ accounts)
    (hnamed : a.address ∈ plan.named) (hnamed' : b.address ∈ plan.named)
    (haddress : a.address ≠ b.address) : checkMergeable a b = .ok () := by
  obtain ⟨destination, hclass⟩ := exists_destination hdistinct hplan
  -- the destination was checked against every source, the rest follows from one to the other
  rcases hclass a ha hnamed with rfl | hmergeable
  · exact (hclass b hb hnamed').resolve_left fun hsame => haddress (congrArg _ hsame.symm)
  · rcases hclass b hb hnamed' with rfl | hmergeable'
    · exact checkMergeable_comm.1 hmergeable
    · exact checkMergeable_trans (checkMergeable_comm.1 hmergeable) hmergeable' haddress

theorem fusible_of_mem_planMerges (hdistinct : (accounts.map (·.address)).Nodup)
    (hplan : plan ∈ planMerges accounts bondsAuthority) : Fusible plan.named accounts where
  distinct := hdistinct
  listed address hnamed := by
    obtain ⟨key, hgrouped⟩ := grouped_of_mem_planMerges hplan
    obtain ⟨account, haccount, -, haddress⟩ := hgrouped address hnamed
    exact ⟨account, haccount, haddress⟩
  mergeable _ ha _ hb hnamed hnamed' := checkMergeable_of_named hdistinct hplan ha hb hnamed hnamed'

end

/-- Merging is allowed in both directions or in none, and from account to account as long as they are
different.  So any two accounts that a plan for accounts with different addresses names can be merged; the
sources can be merged into the destination in any order, and whatever other merges of the named accounts
are asked for, each is executed.  Afterwards the sources of these merges are gone and no other account, the
accounts that are not named are what they were, and the named ones that are left can still be merged. -/
theorem merges_in_any_nesting :
    (∀ a b : Account, checkMergeable a b = .ok () ↔ checkMergeable b a = .ok ()) ∧
    (∀ a b c : Account, checkMergeable a b = .ok () → checkMergeable b c = .ok () →
      a.address ≠ c.address → checkMergeable a c = .ok ()) ∧
    ∀ (accounts : List Account) (bondsAuthority : Address), (accounts.map (·.address)).Nodup →
      ∀ plan ∈ planMerges accounts bondsAuthority,
        Fusible plan.named accounts ∧
        (∀ order : List Address, order.Perm plan.sources →
          Nesting plan.named (order.map (Merge.mk plan.destination))) ∧
        ∀ (holdings : Account → Account → UInt64 × UInt64) (merges : List Merge),
          Nesting plan.named merges →
            ∃ left, executeMerges? holdings merges accounts = some left ∧
              Fusible (plan.named.filter fun address =>
                decide (address ∉ merges.map (·.source))) left ∧
              left.map (·.address) = (accounts.map (·.address)).filter
                (fun address => decide (address ∉ merges.map (·.source))) ∧
              ∀ account ∈ accounts, account.address ∉ plan.named → account ∈ left := by
  refine ⟨fun _ _ => checkMergeable_comm, fun _ _ _ => checkMergeable_trans, ?_⟩
  intro accounts bondsAuthority hdistinct plan hplan
  have hfusible := fusible_of_mem_planMerges hdistinct hplan
  refine ⟨hfusible, fun order horder => ?_, fun holdings merges hmerges => ?_⟩
  · exact nesting_of_perm (named_nodup hdistinct hplan) horder
  · exact hfusible.executeMerges? holdings hmerges

/-- Of three accounts the smallest is merged into the next one, which then takes the largest, the
destination of the plan; one account is left. -/
theorem merges_of_three_accounts_nested :
    let address (n : UInt8) : Address := ⟨List.replicate 32 n, List.length_replicate⟩
    let account (n : UInt8) (balance : UInt64) : Account :=
      ⟨address n, some Bytes32.zero, some Bytes32.zero, some Bytes32.zero, none, none, false, false,
        balance, 0, 7, none, .active⟩
    let accounts : List Account := [account 3 9000, account 1 5000, account 2 4000]
    let plan : MergePlan := ⟨address 3, [address 1, address 2]⟩
    let merges : List Merge := [⟨address 1, address 2⟩, ⟨address 1, address 3⟩]
    (accounts.map (·.address)).Nodup ∧ plan ∈ planMerges accounts Bytes32.zero ∧
      checkMergeable (account 1 5000) (account 2 4000) = .ok () ∧ Nesting plan.named merges ∧
      ∃ left, executeMerges? (fun a b => (a.balance + b.balance, a.staked + b.staked)) merges accounts
        = some left ∧ left.map (·.address) = [address 1] := by
  intro address account accounts plan merges
  have hdistinct : (accounts.map (·.address)).Nodup := by decide
  -- the accounts are in their order already
  have hgroup : mergeGroup Bytes32.zero accounts ⟨Bytes32.zero, .active⟩ = accounts :=
    mergeGroup_eq_self (by decide +kernel) (by decide +kernel)
  have hplan : plan ∈ planMerges accounts Bytes32.zero := by
    refine mem_planMerges_iff.2 ⟨⟨Bytes32.zero, .active⟩, by decide +kernel, ?_⟩
    rw [hgroup]
    decide +kernel
  have hmerges : Nesting plan.named merges :=
    .merge (by decide) (by decide) (by decide)
      (.merge (by decide) (by decide) (by decide) (.done _))
  obtain ⟨-, -, hplans⟩ := merges_in_any_nesting
  obtain ⟨hfusible, -, hexecuted⟩ := hplans accounts Bytes32.zero hdistinct plan hplan
  have hmergeable : checkMergeable (account 1 5000) (account 2 4000) = .ok () :=
    hfusible.mergeable _ (by decide) _ (by decide) (by decide) (by decide) (by decide)
  obtain ⟨left, hleft, -, haddresses, -⟩ := hexecuted _ merges hmerges
  exact ⟨hdistinct, hplan, hmergeable, hmerges, left, hleft, haddresses⟩

end Surety.Stake
