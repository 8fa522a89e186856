import Surety.Bytes

/-!
# SHA-512

The hash of a byte string as 64 bytes: the construction of SHA-256 with 64-bit words, blocks of 128
bytes and 80 rounds.  Signing is its only user, so it returns a plain byte string.
-/

namespace Surety.Sha512

/-- The eight words that one block is mixed into. -/
structure State where
  a : UInt64
  b : UInt64
  c : UInt64
  d : UInt64
  e : UInt64
  f : UInt64
  g : UInt64
  h : UInt64
  deriving DecidableEq

/-- The round constants, from the cube roots of the first 80 primes. -/
def roundConstants : List UInt64 :=
  [0x428a2f98d728ae22, 0x7137449123ef65cd, 0xb5c0fbcfec4d3b2f, 0xe9b5dba58189dbbc,
   0x3956c25bf348b538, 0x59f111f1b605d019, 0x923f82a4af194f9b, 0xab1c5ed5da6d8118,
   0xd807aa98a3030242, 0x12835b0145706fbe, 0x243185be4ee4b28c, 0x550c7dc3d5ffb4e2,
   0x72be5d74f27b896f, 0x80deb1fe3b1696b1, 0x9bdc06a725c71235, 0xc19bf174cf692694,
   0xe49b69c19ef14ad2, 0xefbe4786384f25e3, 0x0fc19dc68b8cd5b5, 0x240ca1cc77ac9c65,
   0x2de92c6f592b0275, 0x4a7484aa6ea6e483, 0x5cb0a9dcbd41fbd4, 0x76f988da831153b5,
   0x983e5152ee66dfab, 0xa831c66d2db43210, 0xb00327c898fb213f, 0xbf597fc7beef0ee4,
   0xc6e00bf33da88fc2, 0xd5a79147930aa725, 0x06ca6351e003826f, 0x142929670a0e6e70,
   0x27b70a8546d22ffc, 0x2e1b21385c26c926, 0x4d2c6dfc5ac42aed, 0x53380d139d95b3df,
   0x650a73548baf63de, 0x766a0abb3c77b2a8, 0x81c2c92e47edaee6, 0x92722c851482353b,
   0xa2bfe8a14cf10364, 0xa81a664bbc423001, 0xc24b8b70d0f89791, 0xc76c51a30654be30,
   0xd192e819d6ef5218, 0xd69906245565a910, 0xf40e35855771202a, 0x106aa07032bbd1b8,
   0x19a4c116b8d2d0c8, 0x1e376c085141ab53, 0x2748774cdf8eeb99, 0x34b0bcb5e19b48a8,
   0x391c0cb3c5c95a63, 0x4ed8aa4ae3418acb, 0x5b9cca4f7763e373, 0x682e6ff3d6b2b8a3,
   0x748f82ee5defb2fc, 0x78a5636f43172f60, 0x84c87814a1f0ab72, 0x8cc702081a6439ec,
   0x90befffa23631e28, 0xa4506cebde82bde9, 0xbef9a3f7b2c67915, 0xc67178f2e372532b,
   0xca273eceea26619c, 0xd186b8c721c0c207, 0xeada7dd6cde0eb1e, 0xf57d4f7fee6ed178,
   0x06f067aa72176fba, 0x0a637dc5a2c898a6, 0x113f9804bef90dae, 0x1b710b35131c471b,
   0x28db77f523047d84, 0x32caab7b40c72493, 0x3c9ebe0a15c9bebc, 0x431d67c49c100d4c,
   0x4cc5d4becb3e42b6, 0x597f299cfc657e2a, 0x5fcb6fab3ad6faec, 0x6c44198c4a475817]

/-- The state before the first block, from the square roots of the first eight primes. -/
def initial : State :=
  ⟨0x6a09e667f3bcc908, 0xbb67ae8584caa73b, 0x3c6ef372fe94f82b, 0xa54ff53a5f1d36f1,
   0x510e527fade682d1, 0x9b05688c2b3e6c1f, 0x1f83d9abfb41bd6b, 0x5be0cd19137e2179⟩

/-- Rotation of a word to the right. -/
def rotateRight (x k : UInt64) : UInt64 := (x >>> k) ||| (x <<< (64 - k))

/-- The mixing of the word fifteen places back in the schedule. -/
def scheduleLow (x : UInt64) : UInt64 := rotateRight x 1 ^^^ rotateRight x 8 ^^^ (x >>> 7)

/-- The mixing of the word two places back in the schedule. -/
def scheduleHigh (x : UInt64) : UInt64 := rotateRight x 19 ^^^ rotateRight x 61 ^^^ (x >>> 6)

/-- The words of a string whose length is a multiple of eight, most significant byte first. -/
def words : Bytes → List UInt64
  | b0 :: b1 :: b2 :: b3 :: b4 :: b5 :: b6 :: b7 :: rest =>
      UInt64.ofNat (Bytes.toNatBE [b0, b1, b2, b3, b4, b5, b6, b7]) :: words rest
  | _ => []

/-- Append `count` further words to a schedule that holds at least sixteen. -/
def extendSchedule : (count : Nat) → Array UInt64 → Array UInt64
  | 0, schedule => schedule
  | count + 1, schedule =>
      let t := schedule.size
      extendSchedule count (schedule.push
        (scheduleHigh (schedule.getD (t - 2) 0) + schedule.getD (t - 7) 0
          + scheduleLow (schedule.getD (t - 15) 0) + schedule.getD (t - 16) 0))

/-- The 80 words that the rounds of one block consume. -/
def schedule (block : List UInt64) : List UInt64 :=
  (extendSchedule 64 block.toArray).toList

/-- One round: the state after consuming a schedule word and a round constant. -/
def round (s : State) (k w : UInt64) : State :=
  let choice := (s.e &&& s.f) ^^^ (~~~s.e &&& s.g)
  let majority := (s.a &&& s.b) ^^^ (s.a &&& s.c) ^^^ (s.b &&& s.c)
  let high := rotateRight s.e 14 ^^^ rotateRight s.e 18 ^^^ rotateRight s.e 41
  let low := rotateRight s.a 28 ^^^ rotateRight s.a 34 ^^^ rotateRight s.a 39
  let t1 := s.h + high + choice + k + w
  ⟨t1 + (low + majority), s.a, s.b, s.c, s.d + t1, s.e, s.f, s.g⟩

/-- All rounds of one block. -/
def rounds : List UInt64 → List UInt64 → State → State
  | k :: ks, w :: ws, s => rounds ks ws (round s k w)
  | _, _, s => s

/-- The state after one block. -/
def compress (s : State) (block : List UInt64) : State :=
  let t := rounds roundConstants (schedule block) s
  ⟨s.a + t.a, s.b + t.b, s.c + t.c, s.d + t.d, s.e + t.e, s.f + t.f, s.g + t.g, s.h + t.h⟩

/-- The state after `count` blocks of sixteen words. -/
def compressAll : (count : Nat) → List UInt64 → State → State
  | 0, _, s => s
  | count + 1, ws, s => compressAll count (ws.drop 16) (compress s (ws.take 16))

/-- The number of zero bytes between the one bit and the length of the message. -/
def paddingZeros (length : Nat) : Nat := (239 - length % 128) % 128

/-- The message followed by a one bit, zeros and its length in bits. -/
def pad (message : Bytes) : Bytes :=
  message ++ 0x80 :: (List.replicate (paddingZeros message.length) 0
    ++ Bytes.ofNatBE 16 (8 * message.length))

/-- The 64 bytes of a state. -/
def State.digest (s : State) : Bytes :=
  [s.a, s.b, s.c, s.d, s.e, s.f, s.g, s.h].flatMap fun w => Bytes.ofNatBE 8 w.toNat

/-- The SHA-512 hash of a byte string. -/
def hash (message : Bytes) : Bytes :=
  let padded := pad message
  (compressAll (padded.length / 128) (words padded) initial).digest

@[simp] theorem hash_length (message : Bytes) : (hash message).length = 64 := by
  simp [hash, State.digest]

theorem pad_length_mod (message : Bytes) : (pad message).length % 128 = 0 := by
  simp only [pad, List.length_append, List.length_cons, List.length_replicate,
    Bytes.ofNatBE_length, paddingZeros]
  omega

end Surety.Sha512
