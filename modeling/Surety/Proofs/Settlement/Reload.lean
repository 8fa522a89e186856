import Surety.Proofs.Bitmap.Account
import Surety.Proofs.Settlement.Ledger

/-!
# Saving and loading in the middle of a run

Claims are saved to the account of their bitmap and loaded again next to their settlement.  Whatever
was done before, and wherever the claims came from, the loaded claims are the saved ones, so a run
that is interrupted by saving and loading cannot be told from one that is not.

* `Claims.Anchored` is what loading checks: the claims stand at the address of their settlement and
  have a bit for each of its leaves.  New and loaded claims are anchored, and every step keeps them so.
* `Anchored.ofAccountData_toAccountData` says that anchored claims are loaded as they were saved.
* `Claims.Action` is an operation or a reload; `reloads_change_nothing` is the result for runs of
  them.

A closed settlement has no bitmap to save.  Saving it is refused, and it stays as it is.
-/

namespace Surety

/-- The address of a settlement depends on nothing that its operations change. -/
theorem Settlement.address_of_constants {s s' : Settlement} (h : s'.constants = s.constants)
    (config : Config) : s'.address config = s.address config := by
  cases s
  cases s'
  simp only [constants, Settlement.mk.injEq] at h
  obtain ⟨rfl, -, rfl, -, -, -, -, -, rfl, -⟩ := h
  rfl

namespace Claims

/-! ## Claims that fit their account -/

/-- How claims come into being under a configuration: new, or loaded from an account. -/
inductive Opened (config : Config) : Claims → Prop
  | start {settlement : Settlement} {claims : Claims}
      (hstart : start settlement config = .ok claims) : Opened config claims
  | load {settlement : Settlement} {data : Bytes} {claims : Claims}
      (hload : ofAccountData settlement config data = .ok claims) : Opened config claims

theorem ofAccountData_eq_ok_iff {settlement : Settlement} {config : Config} {data : Bytes}
    {claims : Claims} :
    ofAccountData settlement config data = .ok claims ↔
      ∃ header bitmap, ClaimBitmap.ofAccountData data = .ok (header, bitmap) ∧
        header.settlement = settlement.address config ∧
        header.maxRecords = settlement.maxMerkleNodes ∧
        claims = ⟨settlement.address config, settlement, some bitmap⟩ := by
  unfold ofAccountData
  dsimp only
  constructor
  · intro h
    split at h
    · cases h
    · rename_i header bitmap hread
      split at h
      · cases h
      · rename_i haddress
        split at h
        · cases h
        · rename_i hrecords
          cases h
          exact ⟨header, bitmap, hread, not_not.1 haddress, not_not.1 hrecords, rfl⟩
  · rintro ⟨header, bitmap, hread, haddress, hrecords, rfl⟩
    rw [hread]
    dsimp only
    rw [if_neg (not_not.2 haddress), if_neg (not_not.2 hrecords)]

/-- The claims stand at the address of their settlement and have a bit for each of its leaves. -/
structure Anchored (config : Config) (claims : Claims) : Prop where
  address_eq : claims.address = claims.settlement.address config
  records_eq : ∀ bitmap, claims.bitmap = some bitmap →
    bitmap.maxRecords = claims.settlement.maxMerkleNodes

section

variable {config : Config} {claims : Claims}

theorem anchored_of_opened (h : Opened config claims) : Anchored config claims := by
  cases h with
  | @start settlement _ hstart =>
      unfold start at hstart
      split at hstart
      · cases hstart
      · rename_i bitmap hempty
        cases hstart
        have hrecords : bitmap.maxRecords = settlement.maxMerkleNodes :=
          (ClaimBitmap.empty_eq_ok hempty).1
        refine ⟨rfl, ?_⟩
        intro other hother
        obtain rfl : bitmap = other := Option.some.inj hother
        exact hrecords
  | @load settlement data _ hload =>
      obtain ⟨header, bitmap, hread, -, hheader, rfl⟩ := ofAccountData_eq_ok_iff.1 hload
      -- the account may be longer than it has to be, but its bitmap is as long as its header says
      have hrecords : bitmap.maxRecords = settlement.maxMerkleNodes :=
        (ClaimBitmap.maxRecords_of_ofAccountData hread).trans hheader
      refine ⟨rfl, ?_⟩
      intro other hother
      obtain rfl : bitmap = other := Option.some.inj hother
      exact hrecords

/-- Every step keeps the address, the number of leaves and the size of the bitmap. -/
theorem Anchored.step {claims' : Claims} {operation : Operation} {outcome : Outcome}
    (h : Anchored config claims) (hstep : Step claims operation outcome claims') :
    Anchored config claims' := by
  obtain ⟨haddress, hconstants⟩ := step_constants hstep
  obtain ⟨-, -, hmax, -⟩ := Settlement.limits_of_constants hconstants
  refine ⟨?_, ?_⟩
  · rw [haddress, h.address_eq, Settlement.address_of_constants hconstants]
  · intro bitmap' hopen'
    rw [hmax]
    cases hstep with
    | record => exact h.records_eq bitmap' hopen'
    | accept hopen _ _ hset =>
        obtain rfl := Option.some.inj hopen'
        rw [(ClaimBitmap.trySet_eq_ok_iff.1 hset).2.1]
        exact h.records_eq _ hopen
    | close => cases hopen'

theorem Anchored.after (h : Anchored config claims) (operation : Operation) :
    Anchored config (claims.after operation) := by
  rcases perform_cases claims operation with ⟨_, -, hafter⟩ | ⟨_, _, -, hafter, hstep⟩
  · rwa [hafter]
  · rw [hafter]
    exact h.step hstep

theorem Anchored.run (h : Anchored config claims) (operations : List Operation) :
    Anchored config (claims.run operations) :=
  run_of_step Anchored.step h operations

/-! ## Reloading -/

/-- Anchored claims are loaded as they were saved. -/
theorem Anchored.ofAccountData_toAccountData {bitmap : ClaimBitmap} (h : Anchored config claims)
    (hopen : claims.bitmap = some bitmap) :
    ∃ data, claims.toAccountData = .ok data ∧
      ofAccountData claims.settlement config data = .ok claims := by
  refine ⟨bitmap.toAccountData claims.address, ?_, ?_⟩
  · rw [toAccountData, openBitmap, hopen]
  · have hread := ClaimBitmap.ofAccountData_toAccountData bitmap claims.address
    refine ofAccountData_eq_ok_iff.2
      ⟨_, bitmap, hread, h.address_eq, h.records_eq bitmap hopen, ?_⟩
    rw [← h.address_eq, ← hopen]

/-- The claims after saving and loading; claims that cannot be saved stay as they are. -/
def reloaded (config : Config) (claims : Claims) : Claims :=
  match claims.reload config with
  | .ok loaded => loaded
  | .error _ => claims

theorem Anchored.reloaded_eq (h : Anchored config claims) : claims.reloaded config = claims := by
  cases hopen : claims.bitmap with
  | none => rw [reloaded, reload, toAccountData, openBitmap, hopen]
  | some bitmap =>
      obtain ⟨data, hsave, hload⟩ := h.ofAccountData_toAccountData hopen
      rw [reloaded, reload, hsave]
      simp only [hload]

end

/-! ## Runs with reloads -/

/-- An operation, or saving and loading between operations. -/
inductive Action where
  | perform (operation : Operation)
  | reload

/-- The operation of an action; a reload is none. -/
def Action.operation? : Action → Option Operation
  | .perform operation => some operation
  | .reload => none

/-- The state after an action. -/
def act (config : Config) (claims : Claims) : Action → Claims
  | .perform operation => claims.after operation
  | .reload => claims.reloaded config

/-- The state after a run in which the claims are reloaded. -/
def runReloading (config : Config) (claims : Claims) (actions : List Action) : Claims :=
  actions.foldl (act config) claims

/-- The answers of the operations of a run in which the claims are reloaded. -/
def answersReloading (config : Config) (claims : Claims) : List Action → List (Result Outcome)
  | [] => []
  | .perform operation :: rest =>
      (claims.perform operation).map (·.1)
        :: answersReloading config (claims.after operation) rest
  | .reload :: rest => answersReloading config (claims.reloaded config) rest

section

variable {config : Config} {claims : Claims}

theorem Anchored.runReloading_eq (h : Anchored config claims) (actions : List Action) :
    claims.runReloading config actions = claims.run (actions.filterMap Action.operation?) := by
  induction actions generalizing claims with
  | nil => rfl
  | cons action rest ih =>
      cases action with
      | perform operation => exact ih (h.after operation)
      | reload =>
          change (claims.reloaded config).runReloading config rest = _
          rw [h.reloaded_eq]
          exact ih h

theorem Anchored.answersReloading_eq (h : Anchored config claims) (actions : List Action) :
    claims.answersReloading config actions
      = claims.answers (actions.filterMap Action.operation?) := by
  induction actions generalizing claims with
  | nil => rfl
  | cons action rest ih =>
      cases action with
      | perform operation =>
          change _ :: (claims.after operation).answersReloading config rest = _ :: _
          rw [ih (h.after operation)]
      | reload =>
          change (claims.reloaded config).answersReloading config rest = _
          rw [h.reloaded_eq]
          exact ih h

/-- Reloading in the middle of a run of new or loaded claims changes no answer and not the state
after the run; and as long as the settlement is open, the state can be saved and is loaded as it
was saved. -/
theorem reloads_change_nothing (h : Opened config claims) (actions : List Action) :
    let operations := actions.filterMap Action.operation?
    let state := claims.runReloading config actions
    state = claims.run operations ∧
    claims.answersReloading config actions = claims.answers operations ∧
    ∀ bitmap, state.bitmap = some bitmap → ∃ data, state.toAccountData = .ok data ∧
      ofAccountData state.settlement config data = .ok state := by
  intro operations state
  have hanchored := anchored_of_opened h
  have hstate : state = claims.run operations := hanchored.runReloading_eq actions
  refine ⟨hstate, hanchored.answersReloading_eq actions, ?_⟩
  intro bitmap hopen
  rw [hstate] at hopen ⊢
  exact (hanchored.run operations).ofAccountData_toAccountData hopen

/-- The claims come from an account of another version, with a bit behind the last record and three
bytes more than it needs.  They are reloaded between two plans, and once more after a close that came
too early. -/
theorem loaded_claims_survive_reloads :
    let config : Config := ⟨Bytes32.zero, Bytes32.zero, 3, 0, 3, 0⟩
    let settlement : Settlement :=
      ⟨Bytes32.zero, Bytes32.zero, Bytes32.zero, 10, 9, 0, 0, 0, 0, 0, 3, 0, Bytes32.zero, none, 0⟩
    let header : ClaimsHeader := ⟨settlement.address config, 7, 9⟩
    let plan (lamports : UInt64) : FundingPlan :=
      .wholeAccount Bytes32.zero Bytes32.zero lamports
    let actions : List Action :=
      [.perform (.record (plan 3)), .reload, .perform (.record (plan 4)),
        .perform (.close ⟨2, 0, 0⟩), .reload]
    ∃ claims, ofAccountData settlement config (header.encode ++ [0, 2, 1, 2, 3]) = .ok claims ∧
      claims.answersReloading config actions
        = [.ok .recorded, .ok .recorded, .error (.settlementNotExpired 3 2)] ∧
      (claims.runReloading config actions).settlement.lamportsFunded = 7 ∧
      ∃ data, (claims.runReloading config actions).toAccountData = .ok data ∧
        ofAccountData (claims.runReloading config actions).settlement config data
          = .ok (claims.runReloading config actions) := by
  intro config settlement header plan actions
  let bitmap : ClaimBitmap := ⟨9, #[0, 2], by decide, by decide⟩
  have hread : ClaimBitmap.ofAccountData (header.encode ++ [0, 2, 1, 2, 3])
      = .ok (header, bitmap) :=
    @ClaimBitmap.ofAccountData_encode_append bitmap header rfl [1, 2, 3]
  have hload : ofAccountData settlement config (header.encode ++ [0, 2, 1, 2, 3])
      = .ok ⟨settlement.address config, settlement, some bitmap⟩ :=
    ofAccountData_eq_ok_iff.2 ⟨header, bitmap, hread, rfl, rfl, rfl⟩
  obtain ⟨hstate, hanswers, hsaved⟩ := reloads_change_nothing (.load hload) actions
  refine ⟨_, hload, hanswers.trans (by decide +kernel), ?_, ?_⟩
  · rw [hstate]
    rfl
  · exact hsaved bitmap (by rw [hstate]; rfl)

end

end Claims

end Surety
