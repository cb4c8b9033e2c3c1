/-!
# Reduction strategies

A strategy says how a list of elements becomes one result: where an accumulator starts, how it takes
in one element, how the accumulators of two neighbouring parts are joined, and what is made of the
last accumulator and the number of elements.
-/

namespace ArrayEngine

/-- A reduction of elements of type `α` to a result of type `γ` by accumulators of type `β`. -/
structure Strategy (α β γ : Type) where
  /-- The accumulator of no elements. -/
  seed : β
  /-- Takes one more element into an accumulator. -/
  combine : β → α → β
  /-- Joins the accumulators of two neighbouring parts. -/
  merge : β → β → β
  /-- The result for an accumulator and the number of elements. -/
  finalize : β → Nat → γ

namespace Strategy

variable {α β γ : Type}

/-- The accumulator of a list of elements. -/
def fold (strategy : Strategy α β γ) (elements : List α) : β :=
  elements.foldl strategy.combine strategy.seed

/-- The accumulator of a list goes on from that of its first part. -/
theorem fold_append (strategy : Strategy α β γ) (left right : List α) :
    strategy.fold (left ++ right) = right.foldl strategy.combine (strategy.fold left) := by
  simp [fold]

/-- The accumulators of neighbouring parts joined from left to right. -/
def mergeAll (strategy : Strategy α β γ) : List β → β
  | [] => strategy.seed
  | first :: rest => rest.foldl strategy.merge first

end Strategy

end ArrayEngine
