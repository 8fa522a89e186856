import Surety.Address.Derivation
import Surety.Error

/-!
# Bonds

The collateral of one validator.  There is one bond per configuration and vote account, because its
address is derived from the two.  The authority of the bond may change it, and so may the
withdrawer of the vote account.
-/

namespace Surety

/-- The collateral of a validator. -/
structure Bond where
  /-- the account that the bond was created under -/
  config : Address
  voteAccount : Address
  authority : Address
  /-- cost per mille per epoch -/
  cpmpe : UInt64
  /-- the bump of the derived address -/
  bump : UInt8
  deriving DecidableEq

namespace Bond

/-- The bond of a vote account. -/
def create (config : Config) (voteAccount authority : Address) (cpmpe : UInt64) : Bond where
  config := config.configAddress
  voteAccount := voteAccount
  authority := authority
  cpmpe := cpmpe
  bump := (Derivation.bond voteAccount).bump config

/-- The address of a bond. -/
def address (config : Config) (bond : Bond) : Address :=
  (Derivation.bond bond.voteAccount).address config

/-- Whether an authority may change the bond. -/
def permitsChange (bond : Bond) (authority : Address) (voteWithdrawer : Option Address) : Bool :=
  decide (authority = bond.authority) || decide (voteWithdrawer = some authority)

/-- Refuse an authority that may not change the bond. -/
def checkChange (bond : Bond) (config : Config) (authority : Address)
    (voteWithdrawer : Option Address) : Result Unit :=
  if bond.permitsChange authority voteWithdrawer then .ok ()
  else .error (.bondChangeNotPermitted (bond.address config) authority)

end Bond

/-- The address of a bond, or the reason why it is not known. -/
def resolveBond (config : Config) (bond voteAccount : Option Address) : Result Address :=
  match resolveBond? config bond voteAccount with
  | some address => .ok address
  | none => .error (.addressResolution .bond)

/-- The address of a withdraw request, or the reason why it is not known. -/
def resolveWithdrawRequest (config : Config) (request bond voteAccount : Option Address) :
    Result Address :=
  match resolveWithdrawRequest? config request bond voteAccount with
  | some address => .ok address
  | none => .error (.addressResolution .withdrawRequest)

end Surety
