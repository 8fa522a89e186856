import Surety.Config
import Surety.Record.Row

/-!
# Records of protocol parameters

Every parameter that a record leaves out has its production value.
-/

namespace Surety.Config

/-- The fields of a record, in order. -/
def fieldNames : List String :=
  ["program_id", "config_address", "epochs_to_claim_settlement",
    "slots_to_start_settlement_claiming", "withdraw_lockup_epochs", "minimum_stake_lamports"]

/-- The record of some parameters. -/
def toJson (config : Config) : Json :=
  .obj [
    ("program_id", .ofAddress config.programId),
    ("config_address", .ofAddress config.configAddress),
    ("epochs_to_claim_settlement", .word config.epochsToClaim),
    ("slots_to_start_settlement_claiming", .word config.slotsToStartClaiming),
    ("withdraw_lockup_epochs", .word config.withdrawLockupEpochs),
    ("minimum_stake_lamports", .word config.configuredMinimum)]

/-- The parameters of a record whose fields are read in the given way. -/
def ofSlots? {α : Type} (slot : String → Option α) (address : α → Option Address)
    (word : α → Option UInt64) : Option Config := do
  let addressOr (name : String) (default : Address) : Option Address :=
    match slot name with
    | some value => address value
    | none => some default
  let wordOr (name : String) (default : UInt64) : Option UInt64 :=
    match slot name with
    | some value => word value
    | none => some default
  let programId ← addressOr "program_id" production.programId
  let configAddress ← addressOr "config_address" production.configAddress
  let epochsToClaim ← wordOr "epochs_to_claim_settlement" production.epochsToClaim
  let slotsToStart ←
    wordOr "slots_to_start_settlement_claiming" production.slotsToStartClaiming
  let lockupEpochs ← wordOr "withdraw_lockup_epochs" production.withdrawLockupEpochs
  let minimum ← wordOr "minimum_stake_lamports" production.configuredMinimum
  return ⟨programId, configAddress, epochsToClaim, slotsToStart, lockupEpochs, minimum⟩

/-- Read a record. -/
def ofJson? (value : Json) : Option Config := do
  let row ← Json.row? fieldNames value
  let slot (name : String) : Option Json :=
    match row name with
    | .given value => some value
    | _ => none
  ofSlots? slot (fun value => (Json.toAddress value).toOption) Json.word?

end Surety.Config
