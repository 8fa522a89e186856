import Surety.Bitmap.Header
import Surety.Bond
import Surety.Record.Row
import Surety.Stake.Consolidation

/-!
# Records of bonds, claims headers, stages and merges

These records keep addresses as raw bytes where the accounts do.
-/

namespace Surety

namespace Bond

/-- The fields of a record, in order. -/
def fieldNames : List String := ["config", "vote_account", "authority", "cpmpe", "bump"]

/-- The record of a bond. -/
def toJson (bond : Bond) : Json :=
  .obj [
    ("config", .ofRaw32 bond.config),
    ("vote_account", .ofRaw32 bond.voteAccount),
    ("authority", .ofRaw32 bond.authority),
    ("cpmpe", .word bond.cpmpe),
    ("bump", .byte bond.bump)]

/-- Read a record. -/
def ofJson? (value : Json) : Option Bond := do
  let row ← Json.row? fieldNames value
  let config ← (row "config").required? Json.toRaw32?
  let voteAccount ← (row "vote_account").required? Json.toRaw32?
  let authority ← (row "authority").required? Json.toRaw32?
  let cpmpe ← (row "cpmpe").word?
  let bump ← (row "bump").byte?
  return ⟨config, voteAccount, authority, cpmpe, bump⟩

end Bond

namespace ClaimsHeader

/-- The fields of a record, in order. -/
def fieldNames : List String := ["settlement", "version", "max_records"]

/-- The record of a header. -/
def toJson (header : ClaimsHeader) : Json :=
  .obj [
    ("settlement", .ofRaw32 header.settlement),
    ("version", .byte header.version),
    ("max_records", .word header.maxRecords)]

/-- Read a record. -/
def ofJson? (value : Json) : Option ClaimsHeader := do
  let row ← Json.row? fieldNames value
  let settlement ← (row "settlement").required? Json.toRaw32?
  let version ← (row "version").byte?
  let maxRecords ← (row "max_records").word?
  return ⟨settlement, version, maxRecords⟩

end ClaimsHeader

namespace Stake

/-- The record of a stage. -/
def Stage.toJson (stage : Stage) : Json := .str stage.name

/-- Read a record. -/
def Stage.ofJson? (value : Json) : Option Stage :=
  (Json.unitVariant? value).bind Stage.ofName?

namespace MergePlan

/-- The fields of a record, in order. -/
def fieldNames : List String := ["destination_stake", "source_stakes"]

/-- The record of a plan. -/
def toJson (plan : MergePlan) : Json :=
  .obj [
    ("destination_stake", .ofAddress plan.destination),
    ("source_stakes", .ofRawList plan.sources)]

/-- Read a record. -/
def ofJson? (value : Json) : Option MergePlan := do
  let row ← Json.row? fieldNames value
  let destination ← (row "destination_stake").address?
  let sources ← (row "source_stakes").required? Json.toRawList?
  return ⟨destination, sources⟩

end MergePlan

end Stake

end Surety
