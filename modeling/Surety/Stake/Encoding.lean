import Surety.Stake.Account

/-!
# The bytes of a stake account

A stake account holds its variant in four bytes and then its fields at fixed widths, least
significant byte first.  Bytes behind the last field are ignored.  Reading fails for an unknown
variant and for data that ends before its last field.
-/

namespace Surety.Stake

/-- A reader takes what it needs from the front of the data and leaves the rest. -/
abbrev Reader (α : Type) := Bytes → Option (α × Bytes)

namespace Reader

/-- The next `width` bytes. -/
def take (width : Nat) : Reader Bytes := fun data =>
  if data.length < width then none else some (data.take width, data.drop width)

/-- The next eight-bit number. -/
def byte : Reader UInt8
  | [] => none
  | b :: rest => some (b, rest)

/-- The next 64-bit number. -/
def word : Reader UInt64 := fun data => do
  let (bytes, rest) ← take 8 data
  return (Bytes.toUInt64 bytes, rest)

/-- The next address. -/
def address : Reader Address := fun data => do
  let (bytes, rest) ← take 32 data
  let address ← Bytes32.ofList? bytes
  return (address, rest)

/-- The next lockup. -/
def lockup : Reader Lockup := fun data => do
  let (timestamp, data) ← word data
  let (epoch, data) ← word data
  let (custodian, data) ← address data
  return (⟨timestamp.toInt64, epoch, custodian⟩, data)

/-- The fields of an initialized account. -/
def info : Reader Meta := fun data => do
  let (reserve, data) ← word data
  let (staker, data) ← address data
  let (withdrawer, data) ← address data
  let (lockup, data) ← lockup data
  return (⟨reserve, staker, withdrawer, lockup⟩, data)

/-- The fields of a delegation. -/
def delegation : Reader Delegation := fun data => do
  let (voter, data) ← address data
  let (stake, data) ← word data
  let (activationEpoch, data) ← word data
  let (deactivationEpoch, data) ← word data
  let (warmupRateBits, data) ← word data
  return (⟨voter, stake, activationEpoch, deactivationEpoch, warmupRateBits⟩, data)

/-- The fields of a delegated account. -/
def delegated : Reader State := fun data => do
  let (info, data) ← info data
  let (delegation, data) ← delegation data
  let (credits, data) ← word data
  let (flags, data) ← byte data
  return (.delegated info delegation credits flags, data)

end Reader

namespace Lockup

/-- The bytes of a lockup. -/
def encode (lockup : Lockup) : Bytes :=
  Bytes.ofUInt64 lockup.unixTimestamp.toUInt64
    ++ (Bytes.ofUInt64 lockup.epoch ++ lockup.custodian.toList)

end Lockup

/-- The bytes of the fields of an initialized account. -/
def Meta.encode (info : Meta) : Bytes :=
  Bytes.ofUInt64 info.rentExemptReserve
    ++ (info.staker.toList ++ (info.withdrawer.toList ++ info.lockup.encode))

/-- The bytes of a delegation. -/
def Delegation.encode (d : Delegation) : Bytes :=
  d.voter.toList ++ (Bytes.ofUInt64 d.stake ++ (Bytes.ofUInt64 d.activationEpoch
    ++ (Bytes.ofUInt64 d.deactivationEpoch ++ Bytes.ofUInt64 d.warmupRateBits)))

/-- The bytes of an account. -/
def State.encode : State → Bytes
  | .uninitialized => Bytes.ofNatLE 4 0
  | .initialized info => Bytes.ofNatLE 4 1 ++ info.encode
  | .delegated info delegation credits flags =>
      Bytes.ofNatLE 4 2 ++ (info.encode ++ (delegation.encode ++ (Bytes.ofUInt64 credits ++ [flags])))
  | .rewardsPool => Bytes.ofNatLE 4 3

/-- What a reader found, or the fault of data that ended too early. -/
def orTruncated {α : Type} : Option (α × Bytes) → Except StakeDataFault α
  | some (value, _) => .ok value
  | none => .error .truncated

/-- Read the content of an account. -/
def State.decode (data : Bytes) : Except StakeDataFault State :=
  match Reader.take 4 data with
  | none => .error .truncated
  | some (bytes, rest) =>
      match Bytes.toNatLE bytes with
      | 0 => .ok .uninitialized
      | 1 => (orTruncated (Reader.info rest)).map .initialized
      | 2 => orTruncated (Reader.delegated rest)
      | 3 => .ok .rewardsPool
      | index => .error (.unknownVariant index)

/-- The view of an account given by its bytes.  Unreadable bytes are refused; readable ones have a
view unless their stake cannot be computed in 64 bits. -/
def classify (address : Address) (lamports : UInt64) (data : Bytes) (clock : Clock)
    (history : History) : Result (Option Account) :=
  match State.decode data with
  | .ok state => .ok (classifyState address lamports state clock history)
  | .error fault => .error (.invalidStakeData address fault)

end Surety.Stake
