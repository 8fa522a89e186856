import Surety.Curve.Edwards25519
import Surety.Hash.Sha512

/-!
# Deterministic signatures on the Edwards curve

A seed of 32 bytes is hashed to a secret factor and to a string that makes the nonce of every
message, so that a key signs the same message in the same way each time.
-/

namespace Surety.Signing

open Edwards25519

/-- The two halves of a hashed seed. -/
structure Secret where
  factor : Nat
  nonceSeed : Bytes

/-- The secret of a seed: the low half has its three lowest bits and its top bit cleared and the bit
below the top set. -/
def Secret.ofSeed (seed : Bytes32) : Secret :=
  let expanded := Sha512.hash seed.toList
  let low := Bytes.toNatLE (expanded.take 32)
  ⟨2 ^ 254 + low % 2 ^ 254 / 8 * 8, expanded.drop 32⟩

/-- The public key of a seed. -/
def publicKey (seed : Bytes32) : Address :=
  (Point.base.multiple (Secret.ofSeed seed).factor).compress

/-- A hash as a number modulo the group order. -/
def hashToFactor (message : Bytes) : Nat := Bytes.toNatLE (Sha512.hash message) % groupOrder

/-- The 64 bytes of a signature: the nonce point and the response. -/
def sign (seed : Bytes32) (message : Bytes) : Bytes :=
  let secret := Secret.ofSeed seed
  let key := publicKey seed
  let nonce := hashToFactor (secret.nonceSeed ++ message)
  let commitment := (Point.base.multiple nonce).compress
  let challenge := hashToFactor (commitment.toList ++ key.toList ++ message)
  let response := (nonce + challenge * secret.factor) % groupOrder
  commitment.toList ++ Bytes.ofNatLE 32 response

@[simp] theorem sign_length (seed : Bytes32) (message : Bytes) :
    (sign seed message).length = 64 := by
  simp [sign]

end Surety.Signing
