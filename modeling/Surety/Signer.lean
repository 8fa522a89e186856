import Surety.Curve.Signing
import Surety.Error

/-!
# Signers

An account that takes part in an action, either with its key or known by its public key only.  Two
signers are the same when they have one public key and either both or neither can sign.
-/

namespace Surety

/-- An account that takes part in an action. -/
inductive Signer where
  | keypair (seed : Bytes32)
  | publicKeyOnly (address : Address)

namespace Signer

/-- The public key. -/
def address : Signer → Address
  | .keypair seed => Signing.publicKey seed
  | .publicKeyOnly address => address

/-- Whether the key is there. -/
def canSign : Signer → Bool
  | .keypair _ => true
  | .publicKeyOnly _ => false

/-- The signature of a message. -/
def sign (signer : Signer) (message : Bytes) : Result Bytes :=
  match signer with
  | .keypair seed => .ok (Signing.sign seed message)
  | .publicKeyOnly address => .error (.signerNotAvailable address)

/-- Whether two signers are the same account with the same ability to sign. -/
def same (a b : Signer) : Bool := decide (a.address = b.address) && a.canSign == b.canSign

/-- How a signer shows in messages: never with its secret. -/
def describe : Signer → String
  | .keypair seed => "Keypair(" ++ (Signing.publicKey seed).toText ++ ")"
  | .publicKeyOnly address => "PublicKeyOnly(" ++ address.toText ++ ")"

end Signer

end Surety
