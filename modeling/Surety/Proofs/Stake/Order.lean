import Mathlib.Data.List.Nodup
import Mathlib.Order.RelClasses
import Surety.Stake.Account

/-!
# Accounts by balance and address

Withdrawing looks at small balances first and merging at large ones; both put equal balances in the
order of the addresses.  Everything but the order of the balances is the same, and with different
addresses it leaves one arrangement of a list of accounts.

* `pairwise_before_mergeSort` says that sorting arranges accounts in this way.
* `eq_of_perm_of_before` says that there is one such arrangement.
-/

namespace Surety.Stake

/-- The balances are in the given order, or they are equal and the addresses are in order. -/
def Account.Before (lt : UInt64 → UInt64 → Prop) (a b : Account) : Prop :=
  lt a.balance b.balance ∨ a.balance = b.balance ∧ a.address ≤ b.address

theorem strictTotalOrder_lt : IsStrictTotalOrder UInt64 (· < ·) where
  trichotomous _ _ hab hba := UInt64.le_antisymm (UInt64.not_lt.1 hba) (UInt64.not_lt.1 hab)
  irrefl := UInt64.lt_irrefl
  trans _ _ _ := UInt64.lt_trans

theorem strictTotalOrder_gt : IsStrictTotalOrder UInt64 (· > ·) :=
  have := strictTotalOrder_lt
  inferInstanceAs (IsStrictTotalOrder UInt64 (Function.swap (· < ·)))

section

variable {lt : UInt64 → UInt64 → Prop} [IsStrictTotalOrder UInt64 lt] {a b c : Account}
  {accounts ranked other : List Account}

namespace Account

theorem Before.trans (hab : a.Before lt b) (hbc : b.Before lt c) : a.Before lt c := by
  rcases hab with hab | ⟨hab, haddress⟩
  · rcases hbc with hbc | ⟨hbc, -⟩
    · exact .inl (IsTrans.trans _ _ _ hab hbc)
    · exact .inl (hbc ▸ hab)
  · rcases hbc with hbc | ⟨hbc, haddress'⟩
    · exact .inl (hab ▸ hbc)
    · exact .inr ⟨hab.trans hbc, Bytes32.le_trans haddress haddress'⟩

theorem before_total (lt : UInt64 → UInt64 → Prop) [IsStrictTotalOrder UInt64 lt] (a b : Account) :
    a.Before lt b ∨ b.Before lt a := by
  rcases trichotomous_of lt a.balance b.balance with hlt | hsame | hgt
  · exact .inl (.inl hlt)
  · rcases Bytes32.le_total a.address b.address with haddress | haddress
    · exact .inl (.inr ⟨hsame, haddress⟩)
    · exact .inr (.inr ⟨hsame.symm, haddress⟩)
  · exact .inr (.inl hgt)

/-- Accounts that are each before the other have one address. -/
theorem Before.address_eq (hab : a.Before lt b) (hba : b.Before lt a) : a.address = b.address := by
  rcases hab with hlt | ⟨hsame, hle⟩
  · rcases hba with hgt | ⟨hsame, -⟩
    · exact absurd hgt (asymm hlt)
    · exact absurd (hsame ▸ hlt) (irrefl a.balance)
  · rcases hba with hgt | ⟨-, hge⟩
    · exact absurd (hsame ▸ hgt) (irrefl b.balance)
    · exact Bytes32.le_antisymm hle hge

end Account

theorem pairwise_before_mergeSort (lt : UInt64 → UInt64 → Prop) [IsStrictTotalOrder UInt64 lt]
    {le : Account → Account → Bool}
    (hle : ∀ a b, le a b = true ↔ a.Before lt b) (accounts : List Account) :
    (accounts.mergeSort le).Pairwise (Account.Before lt) := by
  have htrans : ∀ a b c, le a b = true → le b c = true → le a c = true := by
    intro a b c hab hbc
    rw [hle] at hab hbc ⊢
    exact hab.trans hbc
  have htotal : ∀ a b, (le a b || le b a) = true := by
    intro a b
    rw [Bool.or_eq_true, hle, hle]
    exact Account.before_total lt a b
  exact (List.pairwise_mergeSort htrans htotal accounts).imp (hle _ _).1

/-- Accounts with different addresses are arranged in one way. -/
theorem eq_of_perm_of_before (lt : UInt64 → UInt64 → Prop) [IsStrictTotalOrder UInt64 lt]
    (hdistinct : (accounts.map (·.address)).Nodup)
    (hlisted : ∀ account ∈ ranked, account ∈ accounts) (hperm : ranked.Perm other)
    (hranked : ranked.Pairwise (Account.Before lt)) (hother : other.Pairwise (Account.Before lt)) :
    ranked = other := by
  refine List.Perm.eq_of_pairwise ?_ hranked hother hperm
  intro a b ha hb hab hba
  exact List.inj_on_of_nodup_map hdistinct (hlisted a ha) (hlisted b (hperm.mem_iff.2 hb))
    (hab.address_eq hba)

end

end Surety.Stake
