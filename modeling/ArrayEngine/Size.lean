/-!
# Sizes that fit a 64-bit address

Extents, strides, counts and offsets are natural numbers. A 64-bit machine can hold those below
`Size.limit`; this module has the three ways in which arithmetic may treat a result that is too
large: refuse it, clamp it to the largest size, or reduce it modulo `limit`.
-/

namespace ArrayEngine.Size

/-- One more than the largest size that a 64-bit machine can hold. -/
def limit : Nat := 1 <<< 64

/-- The largest size that a 64-bit machine can hold. -/
def largest : Nat := limit - 1

/-- The sum of two sizes, if it is a size. -/
def add? (a b : Nat) : Option Nat :=
  if a + b < limit then some (a + b) else none

/-- The product of two sizes, if it is a size. -/
def mul? (a b : Nat) : Option Nat :=
  if a * b < limit then some (a * b) else none

/-- The product of two sizes, or the largest size if the product is too large. -/
def mulClamped (a b : Nat) : Nat :=
  min (a * b) largest

/-- The sum of two sizes modulo `limit`. -/
def addWrapped (a b : Nat) : Nat :=
  (a + b) % limit

/-- The difference of two sizes modulo `limit`. -/
def subWrapped (a b : Nat) : Nat :=
  (a + (limit - b % limit)) % limit

/-- The product of two sizes modulo `limit`. -/
def mulWrapped (a b : Nat) : Nat :=
  (a * b) % limit

/-- The product of a list of extents, if every product of a leading part of the list is a size. -/
def count? (extents : List Nat) : Option Nat :=
  extents.foldlM mul? 1

/-- The product of a list of extents modulo `limit`. -/
def product (extents : List Nat) : Nat :=
  extents.foldl mulWrapped 1

/-- The sum is returned exactly when it is below the limit. -/
theorem add?_eq_some_iff {a b c : Nat} : add? a b = some c ↔ a + b < limit ∧ a + b = c := by
  grind [add?]

/-- The product is returned exactly when it is below the limit. -/
theorem mul?_eq_some_iff {a b c : Nat} : mul? a b = some c ↔ a * b < limit ∧ a * b = c := by
  grind [mul?]

/-- A difference that is a size is taken exactly. -/
theorem subWrapped_eq {a b : Nat} (hle : b ≤ a) (hlt : a < limit) : subWrapped a b = a - b := by
  rw [subWrapped, Nat.mod_eq_of_lt (Nat.lt_of_le_of_lt hle hlt)]
  have hdifference : a + (limit - b) = a - b + limit := by omega
  rw [hdifference, Nat.add_mod_right, Nat.mod_eq_of_lt (by omega)]

end ArrayEngine.Size
