import Mathlib.Tactic.Common
import Surety.Address.Derivation
import Surety.Proofs.Hash.Collision

/-!
# Derived addresses do not coincide

The seeds of a derivation are hashed one after another, then the bump, the program and a mark, with
nothing that tells where one ends and the next begins.  They are told apart all the same: each kind
of derivation has seeds of a total width of its own, and inside a kind every field has a fixed width.
So an address stands for one kind, one set of inputs, one program and one bump, unless the strings
hashed for two derivations are a collision.

* `flatten_seeds_length` computes the widths; `seeds_injective` reads a kind and its inputs off them.
* `hashed_injective` reads the whole hashed string.
* `inputs_of_address_or_collision` is the result for addresses.

The configuration account is an input of two kinds only: addresses of the other kinds are the same
under all configurations of a program, see `address_congr`.
-/

namespace Surety

/-- A string of 32 bytes at the front of another one is determined by it. -/
theorem Bytes32.append_injective {x y : Bytes32} {s t : Bytes}
    (h : x.toList ++ s = y.toList ++ t) : x = y ∧ s = t := by
  obtain ⟨hfront, hrest⟩ := List.append_inj h (by simp)
  exact ⟨Bytes32.ext hfront, hrest⟩

/-- Behind a word that both strings start with, the two seeds are the same. -/
theorem Bytes32.eq_of_seed {word : Bytes} {x y : Bytes32}
    (h : [word, x.toList].flatten = [word, y.toList].flatten) : x = y := by
  simp only [List.flatten_cons, List.flatten_nil] at h
  have hseeds : x.toList ++ [] = y.toList ++ [] := List.append_cancel_left h
  exact (Bytes32.append_injective hseeds).1

namespace Derivation

/-- The configuration account that an address depends on, if it depends on one. -/
def configAccount? (config : Config) : Derivation → Option Address
  | .bond _ => some config.configAddress
  | .settlement _ _ _ => none
  | .settlementClaims _ => none
  | .withdrawRequest _ => none
  | .bondsWithdrawer => some config.configAddress
  | .settlementStaker _ => none

/-- The string whose hash is the address. -/
def hashed (config : Config) (derivation : Derivation) : Bytes :=
  preimage (derivation.seeds config) (derivation.bump config) config.programId

theorem address_eq_hash (config : Config) (derivation : Derivation) :
    derivation.address config = Sha256.hash (derivation.hashed config) := rfl

/-! ## Widths -/

/-- The number of bytes of all seeds together. -/
def width : Derivation → Nat
  | .bond _ => 76
  | .settlement _ _ _ => 90
  | .settlementClaims _ => 46
  | .withdrawRequest _ => 48
  | .bondsWithdrawer => 47
  | .settlementStaker _ => 52

theorem flatten_seeds_length (config : Config) (derivation : Derivation) :
    (derivation.seeds config).flatten.length = derivation.width := by
  cases derivation <;> simp [seeds, width, ascii]

theorem preimage_length (seeds : List Bytes) (bump : UInt8) (program : Address) :
    (preimage seeds bump program).length = seeds.flatten.length + 54 := by
  simp [preimage, ascii]

/-! ## What a hashed string says -/

section

variable {config other : Config} {d e : Derivation}

/-- The seeds, put one after another, determine the kind of derivation and all its inputs. -/
theorem seeds_injective (h : (d.seeds config).flatten = (e.seeds other).flatten) :
    d = e ∧ d.configAccount? config = e.configAccount? other := by
  -- the widths of the six kinds are different, so `e` is of the kind of `d`
  have hwidth : d.width = e.width := by
    rw [← flatten_seeds_length config d, h, flatten_seeds_length]
  cases d with
  | bond voteAccount =>
      cases e with
      | bond otherAccount =>
          simp only [seeds, List.flatten_cons, List.flatten_nil] at h
          obtain ⟨hconfig, hvote⟩ := Bytes32.append_injective (List.append_cancel_left h)
          obtain ⟨rfl, -⟩ := Bytes32.append_injective hvote
          exact ⟨rfl, congrArg some hconfig⟩
      | _ => simp [width] at hwidth
  | settlement payer root epoch =>
      cases e with
      | settlement otherPayer otherRoot otherEpoch =>
          simp only [seeds, List.flatten_cons, List.flatten_nil, List.append_nil] at h
          obtain ⟨rfl, hroot⟩ := Bytes32.append_injective (List.append_cancel_left h)
          obtain ⟨rfl, hepoch⟩ := Bytes32.append_injective hroot
          obtain rfl : epoch = otherEpoch := Bytes.ofUInt64_injective hepoch
          exact ⟨rfl, rfl⟩
      | _ => simp [width] at hwidth
  | settlementClaims owner =>
      cases e with
      | settlementClaims otherOwner =>
          obtain rfl : owner = otherOwner := Bytes32.eq_of_seed h
          exact ⟨rfl, rfl⟩
      | _ => simp [width] at hwidth
  | withdrawRequest owner =>
      cases e with
      | withdrawRequest otherOwner =>
          obtain rfl : owner = otherOwner := Bytes32.eq_of_seed h
          exact ⟨rfl, rfl⟩
      | _ => simp [width] at hwidth
  | bondsWithdrawer =>
      cases e with
      | bondsWithdrawer =>
          have hconfig : config.configAddress = other.configAddress := Bytes32.eq_of_seed h
          exact ⟨rfl, congrArg some hconfig⟩
      | _ => simp [width] at hwidth
  | settlementStaker owner =>
      cases e with
      | settlementStaker otherOwner =>
          obtain rfl : owner = otherOwner := Bytes32.eq_of_seed h
          exact ⟨rfl, rfl⟩
      | _ => simp [width] at hwidth

/-- The hashed string determines the derivation, what it takes from the configuration, and the
bump. -/
theorem hashed_injective (h : d.hashed config = e.hashed other) :
    d = e ∧ config.programId = other.programId ∧
      d.configAccount? config = e.configAccount? other ∧ d.bump config = e.bump other := by
  -- what follows the seeds is 54 bytes for all kinds, so the seeds have one length
  have hlength : (d.seeds config).flatten.length = (e.seeds other).flatten.length := by
    have hboth := congrArg List.length h
    rw [hashed, hashed, preimage_length, preimage_length] at hboth
    omega
  obtain ⟨hseeds, hrest⟩ := List.append_inj h hlength
  obtain ⟨hbump, hprogram⟩ := List.cons.inj hrest
  obtain ⟨hsame, haccount⟩ := seeds_injective hseeds
  exact ⟨hsame, (Bytes32.append_injective hprogram).1, haccount, hbump⟩

/-! ## What an address says -/

/-- An address depends on nothing of a configuration but the program and, for two kinds, the
configuration account. -/
theorem address_congr (hprogram : config.programId = other.programId)
    (haccount : d.configAccount? config = d.configAccount? other) :
    d.address config = d.address other := by
  have hseeds : d.seeds config = d.seeds other := by
    cases d with
    | bond => rw [seeds, seeds, Option.some.inj haccount]
    | bondsWithdrawer => rw [seeds, seeds, Option.some.inj haccount]
    | settlement => rfl
    | settlementClaims => rfl
    | withdrawRequest => rfl
    | settlementStaker => rfl
  rw [address, address, bump, bump, hseeds, hprogram]

/-- For one address one string was hashed, or two different strings have the same hash. -/
theorem hashed_eq_or_collision (h : d.address config = e.address other) :
    d.hashed config = e.hashed other ∨ Sha256.Collision [d.hashed config, e.hashed other] := by
  rw [address_eq_hash, address_eq_hash] at h
  have hfirst : d.hashed config ∈ [d.hashed config, e.hashed other] := by simp
  have hsecond : e.hashed other ∈ [d.hashed config, e.hashed other] := by simp
  exact Sha256.eq_or_collision hfirst hsecond h

/-- Two derivations with one address are of one kind, with the same inputs, the same program and the
same bump, and under the same configuration account where the kind uses it; or the strings hashed
for the two are different and have the same hash. -/
theorem inputs_of_address_or_collision (h : d.address config = e.address other) :
    (d = e ∧ config.programId = other.programId ∧
      d.configAccount? config = e.configAccount? other ∧ d.bump config = e.bump other) ∨
    Sha256.Collision [d.hashed config, e.hashed other] :=
  (hashed_eq_or_collision h).imp_left hashed_injective

end

/-- Two configurations of one program with different configuration accounts have the same staker for
a settlement, and the derivations agree in all that a staker depends on. -/
theorem staker_under_other_account :
    let config : Config := ⟨Bytes32.zero, Bytes32.zero, 3, 0, 3, 0⟩
    let other : Config := ⟨Bytes32.zero, ⟨List.replicate 32 1, rfl⟩, 9, 0, 3, 0⟩
    let staker := settlementStaker Bytes32.zero
    config.configAddress ≠ other.configAddress ∧ staker.address config = staker.address other ∧
      ((staker = staker ∧ config.programId = other.programId ∧
        staker.configAccount? config = staker.configAccount? other ∧
        staker.bump config = staker.bump other) ∨
      Sha256.Collision [staker.hashed config, staker.hashed other]) := by
  intro config other staker
  have hsame : staker.address config = staker.address other := address_congr rfl rfl
  exact ⟨by decide, hsame, inputs_of_address_or_collision hsame⟩

end Derivation

end Surety
