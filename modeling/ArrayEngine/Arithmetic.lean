import ArrayEngine.Failure
import ArrayEngine.Size

/-!
# Arithmetic on sizes

A build of the library either checks every sum, difference and product of sizes and panics at one
that is no size, or it takes them modulo `Size.limit`. Where that makes a difference, an algorithm
takes the arithmetic of the build as a parameter. Both agree where the results are sizes.
-/

namespace ArrayEngine

/-- What a build makes of sums, differences and products of sizes. Those that are sizes themselves
are exact. -/
structure Arithmetic (m : Type → Type) [Pure m] where
  add : Nat → Nat → m Nat
  sub : Nat → Nat → m Nat
  mul : Nat → Nat → m Nat
  add_eq {a b : Nat} : a + b < Size.limit → add a b = pure (a + b)
  sub_eq {a b : Nat} : b ≤ a → a < Size.limit → sub a b = pure (a - b)
  mul_eq {a b : Nat} : a * b < Size.limit → mul a b = pure (a * b)

namespace Arithmetic

/-- The arithmetic modulo `Size.limit`, of a build without checks. -/
def wrapping {m : Type → Type} [Pure m] : Arithmetic m where
  add a b := pure (Size.addWrapped a b)
  sub a b := pure (Size.subWrapped a b)
  mul a b := pure (Size.mulWrapped a b)
  add_eq h := congrArg pure (Nat.mod_eq_of_lt h)
  sub_eq hle hlt := congrArg pure (Size.subWrapped_eq hle hlt)
  mul_eq h := congrArg pure (Nat.mod_eq_of_lt h)

/-- The arithmetic of a build with checks, which panics at the first result that is no size. -/
def checked : Arithmetic (Except Panic) where
  add a b := if a + b < Size.limit then .ok (a + b) else .error .sumOverflow
  sub a b := if b ≤ a then .ok (a - b) else .error .differenceOverflow
  mul a b := if a * b < Size.limit then .ok (a * b) else .error .productOverflow
  add_eq h := if_pos h
  sub_eq hle _ := if_pos hle
  mul_eq h := if_pos h

end Arithmetic

end ArrayEngine
