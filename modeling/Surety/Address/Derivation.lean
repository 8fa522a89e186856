import Surety.Config
import Surety.Curve.Edwards25519
import Surety.Hash.Sha256

/-!
# Derived addresses

The accounts of the protocol have addresses that are hashes of what they belong to.  A bump byte
makes the hash miss the curve, so that nobody can sign for the address.  The seeds of each kind have
a total length of their own, hence the string that is hashed determines the kind, its inputs, the
bump and the program.
-/

namespace Surety

/-- The bytes of an ASCII text. -/
def ascii (text : String) : Bytes := text.toList.map fun c => UInt8.ofNat c.toNat

/-- What an address is derived for. -/
inductive Derivation where
  | bond (voteAccount : Address)
  | settlement (bond : Address) (merkleRoot : Digest) (epoch : UInt64)
  | settlementClaims (settlement : Address)
  | withdrawRequest (bond : Address)
  /-- the authority that owns all stake accounts of bonds -/
  | bondsWithdrawer
  /-- the staker of the stake accounts that fund a settlement -/
  | settlementStaker (settlement : Address)
  deriving DecidableEq

namespace Derivation

/-- The strings that an address commits to. -/
def seeds (config : Config) : Derivation → List Bytes
  | .bond voteAccount =>
      [ascii "bond_account", config.configAddress.toList, voteAccount.toList]
  | .settlement payer merkleRoot epoch =>
      [ascii "settlement_account", payer.toList, merkleRoot.toList, Bytes.ofUInt64 epoch]
  | .settlementClaims owner => [ascii "claims_account", owner.toList]
  | .withdrawRequest owner => [ascii "withdraw_account", owner.toList]
  | .bondsWithdrawer => [ascii "bonds_authority", config.configAddress.toList]
  | .settlementStaker owner => [ascii "settlement_authority", owner.toList]

/-- The string hashed for a candidate address. -/
def preimage (seeds : List Bytes) (bump : UInt8) (program : Address) : Bytes :=
  seeds.flatten ++ (bump :: (program.toList ++ ascii "ProgramDerivedAddress"))

/-- The candidate address for a bump. -/
def candidate (seeds : List Bytes) (bump : UInt8) (program : Address) : Address :=
  Sha256.hash (preimage seeds bump program)

/-- The first bump from `above + 1` downwards whose candidate is off the curve.  Bump 1 is the last one
left and is taken without a look at the curve.  When its candidate is a point like all the others, the
seeds have no address, and the search should fail; here it answers 1, which then stands for nothing. -/
def searchBump (seeds : List Bytes) (program : Address) : (above : Nat) → UInt8
  | 0 => 1
  | above + 1 =>
      let bump := UInt8.ofNat (above + 2)
      if Edwards25519.isPoint (candidate seeds bump program) then searchBump seeds program above
      else bump

/-- The bump of a derivation. -/
def bump (config : Config) (derivation : Derivation) : UInt8 :=
  searchBump (derivation.seeds config) config.programId 254

/-- The address of a derivation. -/
def address (config : Config) (derivation : Derivation) : Address :=
  candidate (derivation.seeds config) (derivation.bump config) config.programId

end Derivation

/-- The authority that owns all stake accounts of bonds. -/
def Config.bondsAuthority (config : Config) : Address := Derivation.bondsWithdrawer.address config

/-- The address of a bond: the given one, else the one derived from the vote account. -/
def resolveBond? (config : Config) (bond voteAccount : Option Address) : Option Address :=
  match bond, voteAccount with
  | some bond, _ => some bond
  | none, some voteAccount => some ((Derivation.bond voteAccount).address config)
  | none, none => none

/-- The address of a withdraw request: the given one, else the one derived from the bond. -/
def resolveWithdrawRequest? (config : Config) (request bond voteAccount : Option Address) :
    Option Address :=
  match request with
  | some request => some request
  | none =>
      (resolveBond? config bond voteAccount).map fun bond =>
        (Derivation.withdrawRequest bond).address config

end Surety
