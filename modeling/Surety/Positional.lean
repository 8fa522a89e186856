import Surety.Number.Power

/-!
# Positional numerals

A natural number as a fixed number of digits in a base, least significant digit first.
`value_digits` and `digits_value` say that the two readings are inverse on the numbers that fit the
width and on the digit lists whose digits are below the base.  Nothing is said about a number that
needs more digits: its high part is dropped.
-/

namespace Surety.Positional

/-- The `width` lowest digits of a number, least significant first. -/
def digits (base : Nat) : (width : Nat) → Nat → List Nat
  | 0, _ => []
  | width + 1, n => n % base :: digits base width (n / base)

/-- The number that a list of digits denotes, least significant digit first. -/
def value (base : Nat) : List Nat → Nat
  | [] => 0
  | d :: ds => d + base * value base ds

@[simp] theorem digits_length (base width n : Nat) : (digits base width n).length = width := by
  induction width generalizing n with
  | zero => rfl
  | succ width ih => simp [digits, ih]

theorem digits_lt {base width n d : Nat} (hbase : 0 < base) (hd : d ∈ digits base width n) :
    d < base := by
  induction width generalizing n with
  | zero => simp [digits] at hd
  | succ width ih =>
      rcases List.mem_cons.1 hd with rfl | hd
      · exact Nat.mod_lt _ hbase
      · exact ih hd

theorem value_digits {base width n : Nat} (hn : n < base ^ width) :
    value base (digits base width n) = n := by
  induction width generalizing n with
  | zero => simp at hn; simp [digits, value, hn]
  | succ width ih =>
      have hdiv : n / base < base ^ width := by
        apply Nat.div_lt_of_lt_mul
        rwa [Nat.pow_succ, Nat.mul_comm] at hn
      simp only [digits, value, ih hdiv]
      exact Nat.mod_add_div n base

theorem digits_value {base : Nat} {ds : List Nat} (hds : ∀ d ∈ ds, d < base) :
    digits base ds.length (value base ds) = ds := by
  induction ds with
  | nil => rfl
  | cons d ds ih =>
      have hd : d < base := hds d (by simp)
      have hrest : ∀ e ∈ ds, e < base := fun e he => hds e (by simp [he])
      have hbase : 0 < base := Nat.lt_of_le_of_lt (Nat.zero_le d) hd
      simp only [value, List.length_cons, digits]
      rw [Nat.add_mul_mod_self_left, Nat.mod_eq_of_lt hd, Nat.add_mul_div_left _ _ hbase,
        Nat.div_eq_of_lt hd, Nat.zero_add, ih hrest]

theorem value_lt {base : Nat} {ds : List Nat} (hds : ∀ d ∈ ds, d < base) :
    value base ds < base ^ ds.length := by
  induction ds with
  | nil => simp [value]
  | cons d ds ih =>
      have hd : d < base := hds d (by simp)
      have hrest : value base ds < base ^ ds.length := ih fun e he => hds e (by simp [he])
      have hstep : base * (value base ds + 1) ≤ base * base ^ ds.length :=
        Nat.mul_le_mul_left base hrest
      simp only [value, List.length_cons, Nat.pow_succ, Nat.mul_comm (base ^ _) base]
      rw [Nat.mul_add, Nat.mul_one] at hstep
      omega

end Surety.Positional
