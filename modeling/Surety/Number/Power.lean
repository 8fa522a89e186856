/-!
# Powers of whole numbers

Powers of natural numbers and integers are those of the core library.  A module that imports an
algebraic theory would otherwise read them as powers in a monoid, and a statement about `2 ^ 64`
would not be about the `2 ^ 64` of a definition.
-/

namespace Surety

/-- The powers of the core library, before those of any theory. -/
@[default_instance 20000]
instance (priority := 20000) corePow {α : Type} [NatPow α] : Pow α Nat := instPowNat

end Surety
