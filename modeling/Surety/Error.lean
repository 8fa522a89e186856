import Surety.Stake.Basic

/-!
# Why an operation is refused

Every refusal is a value that names its cause; `Error.message` is the one place that turns a cause
into text.
-/

namespace Surety

/-- Which limit of a settlement a claim would break. -/
inductive CapacityKind where
  | claimAmount
  | claimCount
  | funded
  deriving DecidableEq

/-- The name of a limit in messages. -/
def CapacityKind.message : CapacityKind → String
  | .claimAmount => "max total claim"
  | .claimCount => "max merkle nodes"
  | .funded => "lamports funded"

/-- What makes the data of a claims account unusable. -/
inductive ClaimsDataFault where
  | dataTooShort (length headerSize : Nat)
  | bufferTooShort (length headerSize : Nat)
  | discriminator
  | recordCount (found expected : UInt64)
  deriving DecidableEq

/-- The text of an unusable claims account. -/
def ClaimsDataFault.message : ClaimsDataFault → String
  | .dataTooShort length headerSize =>
      s!"data of {length} bytes shorter than header size {headerSize}"
  | .bufferTooShort length headerSize =>
      s!"buffer of {length} bytes shorter than header size {headerSize}"
  | .discriminator => "account discriminator mismatch"
  | .recordCount found expected =>
      s!"max records {found} does not match settlement max merkle nodes {expected}"

/-- What makes the data of a stake account unreadable. -/
inductive StakeDataFault where
  | truncated
  | unknownVariant (index : Nat)
  deriving DecidableEq

/-- The text of unreadable stake account data. -/
def StakeDataFault.message : StakeDataFault → String
  | .truncated => "io error: unexpected end of file"
  | .unknownVariant index =>
      "invalid value: integer \x60" ++ toString index
        ++ "\x60, expected variant index 0 <= i < 4"

/-- Why a stake account cannot serve a bond. -/
inductive Ineligibility where
  | staker (found : Option Address) (expected : Address)
  | withdrawer (found : Option Address) (expected : Address)
  | voter (found : Option Address) (expected : Address)
  | locked
  | notActive (stage : Stake.Stage)
  | tooSmall (balance minimalSize : UInt64)
  deriving DecidableEq

/-- The text of an unsuitable stake account. -/
def Ineligibility.message : Ineligibility → String
  | .staker found expected =>
      "staker " ++ Address.describe found ++ " is not the bonds authority " ++ expected.toText
  | .withdrawer found expected =>
      "withdrawer " ++ Address.describe found ++ " is not the bonds authority " ++ expected.toText
  | .voter found expected =>
      "delegated to " ++ Address.describe found ++ ", expected vote account " ++ expected.toText
  | .locked => "lockup is in force"
  | .notActive stage => "not fully activated, state " ++ stage.name
  | .tooSmall balance minimalSize =>
      s!"balance {balance} is below the minimal size {minimalSize}"

/-- Why two stake accounts cannot be merged. -/
inductive MergeObstacle where
  | sameAccount
  | transient (destination source : Stake.Stage)
  | stages (destination source : Stake.Stage)
  | voters (destination source : Option Address)
  | lockups (destination source : Option Stake.Lockup)
  | authorities
  deriving DecidableEq

/-- The text of an impossible merge. -/
def MergeObstacle.message : MergeObstacle → String
  | .sameAccount => "cannot merge stake account into itself"
  | .transient destination source =>
      "transient state, destination " ++ destination.name ++ ", source " ++ source.name
  | .stages destination source =>
      "different or non-mergeable states, destination " ++ destination.name
        ++ ", source " ++ source.name
  | .voters destination source =>
      "delegated to different vote accounts " ++ Address.describe destination
        ++ " and " ++ Address.describe source
  | .lockups destination source =>
      "lockup differs " ++ Stake.Lockup.describe? destination
        ++ " and " ++ Stake.Lockup.describe? source
  | .authorities => "authorities differ"

/-- What is wrong with a request to withdraw or with the plan for it. -/
inductive WithdrawFault where
  | zeroAmount
  | belongsToBond (bond : Address)
  | noStakeAccounts (bond : Address)
  | planForBond (planned requested : Address)
  | exceedsRemaining (planned remaining : UInt64)
  deriving DecidableEq

/-- The text of a wrong request or plan. -/
def WithdrawFault.message : WithdrawFault → String
  | .zeroAmount => "requested amount has to be positive"
  | .belongsToBond bond => "withdraw request belongs to bond " ++ bond.toText
  | .noStakeAccounts bond =>
      "no stake accounts of bond " ++ bond.toText ++ " to withdraw from"
  | .planForBond planned requested =>
      "plan for bond " ++ planned.toText
        ++ " applied to withdraw request of bond " ++ requested.toText
  | .exceedsRemaining planned remaining =>
      s!"plan of {planned} lamports exceeds the remaining amount {remaining}"

/-- Which address could not be found from what was given. -/
inductive Unresolved where
  | bond
  | withdrawRequest
  deriving DecidableEq

/-- The text of an address that could not be found. -/
def Unresolved.message : Unresolved → String
  | .bond => "bond address requires either the bond or the vote account"
  | .withdrawRequest =>
      "withdraw request address requires the withdraw request, the bond or the vote account"

/-- The quantities whose sum may leave 64 bits. -/
inductive Quantity where
  | lamportsFunded
  | lamportsClaimed
  | merkleNodesClaimed
  | amountNeeded
  | withdrawnAmount
  deriving DecidableEq

/-- The name of a quantity in messages. -/
def Quantity.name : Quantity → String
  | .lamportsFunded => "lamports_funded"
  | .lamportsClaimed => "lamports_claimed"
  | .merkleNodesClaimed => "merkle_nodes_claimed"
  | .amountNeeded => "amount_needed"
  | .withdrawnAmount => "withdrawn_amount"

/-- The cause of a refusal. -/
inductive Error where
  | verificationFailure
  | alreadyClaimed (index : UInt64)
  | indexOutOfRange (index maxRecords : UInt64)
  | bitmapSizeMismatch (required actual : Nat)
  | tooManyRecords (maxRecords limit : UInt64)
  | invalidClaimsData (fault : ClaimsDataFault)
  | settlementMismatch (expected actual : Address)
  | settlementExpired (expiredAfterEpoch currentEpoch : UInt64)
  | notYetClaimable (claimableFromSlot currentSlot : UInt64)
  | settlementNotExpired (claimableUntilEpoch currentEpoch : UInt64)
  | settlementClosed
  | capacityExceeded (kind : CapacityKind) (requested limit : UInt64)
  | stakeNotEligible (stakeAccount : Address) (reason : Ineligibility)
  | notBigEnoughToSplit (stakeAccount : Address) (balance amount minimalSize : UInt64)
  | mergeMismatch (destination source : Address) (reason : MergeObstacle)
  | alreadyFulfilled (requestedAmount withdrawnAmount : UInt64)
  | notYetElapsed (withdrawableFromEpoch currentEpoch : UInt64)
  | invalidWithdrawRequest (fault : WithdrawFault)
  | invalidStakeData (stakeAccount : Address) (fault : StakeDataFault)
  | bondChangeNotPermitted (bond authority : Address)
  | addressResolution (target : Unresolved)
  | signerNotAvailable (signer : Address)
  | arithmeticOverflow (quantity : Quantity)
  deriving DecidableEq

/-- The text of a refusal. -/
def Error.message : Error → String
  | .verificationFailure => "Merkle proof verification failed for settlement claim"
  | .alreadyClaimed index => s!"Claim index {index} has been already claimed"
  | .indexOutOfRange index maxRecords =>
      s!"Bitmap index {index} out of range, max records {maxRecords}"
  | .bitmapSizeMismatch required actual =>
      s!"Bitmap data of {actual} bytes is smaller than required {required} bytes"
  | .tooManyRecords maxRecords limit =>
      s!"Settlement claims cannot hold {maxRecords} records, maximum is {limit}"
  | .invalidClaimsData fault =>
      "Settlement claims account data cannot be parsed: " ++ fault.message
  | .settlementMismatch expected actual =>
      "Settlement claims belongs to settlement " ++ actual.toText
        ++ ", expected " ++ expected.toText
  | .settlementExpired expiredAfterEpoch currentEpoch =>
      s!"Settlement has expired at epoch {expiredAfterEpoch}, current epoch {currentEpoch}"
  | .notYetClaimable claimableFromSlot currentSlot =>
      s!"Settlement is claimable from slot {claimableFromSlot}, current slot {currentSlot}"
  | .settlementNotExpired claimableUntilEpoch currentEpoch =>
      "Settlement has not expired yet, claimable until epoch " ++ toString claimableUntilEpoch
        ++ ", current epoch " ++ toString currentEpoch
  | .settlementClosed => "Settlement has been closed"
  | .capacityExceeded kind requested limit =>
      "Claim would exceed settlement " ++ kind.message
        ++ s!": requested {requested}, limit {limit}"
  | .stakeNotEligible stakeAccount reason =>
      "Stake account " ++ stakeAccount.toText ++ " is not eligible: " ++ reason.message
  | .notBigEnoughToSplit stakeAccount balance amount minimalSize =>
      "Stake account " ++ stakeAccount.toText ++ s!" with {balance} lamports is not big enough"
        ++ s!" to split off {amount} lamports, minimal size {minimalSize}"
  | .mergeMismatch destination source reason =>
      "Stake accounts " ++ source.toText ++ " and " ++ destination.toText
        ++ " cannot be merged: " ++ reason.message
  | .alreadyFulfilled requestedAmount withdrawnAmount =>
      "Withdraw request has been already fulfilled: withdrawn " ++ toString withdrawnAmount
        ++ " of requested " ++ toString requestedAmount
  | .notYetElapsed withdrawableFromEpoch currentEpoch =>
      "Withdraw request lockup has not elapsed, withdrawable from epoch "
        ++ toString withdrawableFromEpoch ++ ", current epoch " ++ toString currentEpoch
  | .invalidWithdrawRequest fault => "Invalid withdraw request: " ++ fault.message
  | .invalidStakeData stakeAccount fault =>
      "Stake account data cannot be deserialized: stake account " ++ stakeAccount.toText
        ++ ": " ++ fault.message
  | .bondChangeNotPermitted bond authority =>
      "Authority " ++ authority.toText ++ " is not permitted to change bond " ++ bond.toText
  | .addressResolution target => "Cannot resolve address: " ++ target.message
  | .signerNotAvailable signer =>
      "Signer for " ++ signer.toText ++ " is not available, public key only"
  | .arithmeticOverflow quantity => "Arithmetic overflow on " ++ quantity.name

/-- The outcome of an operation that may be refused. -/
abbrev Result := Except Error

end Surety
