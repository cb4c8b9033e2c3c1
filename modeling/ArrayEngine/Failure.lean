import ArrayEngine.Error

/-!
# Failures

A computation that cannot give a result raises an error, which its caller may handle, or it stops
by a panic, which no caller is meant to handle. `Failure` is either of the two. Fallible steps of
one kind may stand among steps that fail in both ways; they are lifted there.

Whether there is memory for a list is not part of this description, apart from lists that no machine
could address: `reserve` is the check for these.
-/

namespace ArrayEngine

/-- The cause of a panic. -/
inductive Panic where
  /-- A sum is no size. -/
  | sumOverflow
  /-- A difference is no size. -/
  | differenceOverflow
  /-- A product is no size. -/
  | productOverflow
  /-- A list would take more bytes than can be addressed. -/
  | capacityOverflow
  /-- A list of a length has no entry at an index. -/
  | indexOutOfBounds (index length : Nat)
  deriving DecidableEq, Repr

/-- The end of a computation that gives no result. -/
inductive Failure where
  /-- An error for the caller. -/
  | raised (error : Error)
  | panicked (panic : Panic)
  deriving DecidableEq, Repr

/-- A step that may raise an error, among steps that may also panic. -/
instance : MonadLift (Except Error) (Except Failure) where
  monadLift result := result.mapError .raised

/-- A step that may panic, among steps that may also raise an error. -/
instance : MonadLift (Except Panic) (Except Failure) where
  monadLift result := result.mapError .panicked

/-- A step without a state, among steps with one. -/
instance {σ : Type} : MonadLift (Except Failure) (EStateM Failure σ) where
  monadLift result := fun state ↦
    match result with
    | .ok value => .ok value state
    | .error failure => .error failure state

/-- One more than the number of bytes that a list may take. -/
def listLimit : Nat := 1 <<< 63

/-- Makes room for a list of `count` entries that take `bytes` bytes each, before any of them is
there. -/
def reserve (count bytes : Nat) : Except Panic Unit :=
  if count * bytes < listLimit then .ok () else .error .capacityOverflow

/-- There is room exactly if the bytes of the list can be addressed. -/
theorem reserve_eq_ok_iff {count bytes : Nat} {done : Unit} :
    reserve count bytes = .ok done ↔ count * bytes < listLimit := by
  unfold reserve
  split <;> simp_all

namespace Failure

variable {α : Type}

@[simp] theorem liftError_ok (value : α) :
    (liftM (.ok value : Except Error α) : Except Failure α) = .ok value := rfl

@[simp] theorem liftError_error (error : Error) :
    (liftM (.error error : Except Error α) : Except Failure α) = .error (.raised error) := rfl

@[simp] theorem liftPanic_ok (value : α) :
    (liftM (.ok value : Except Panic α) : Except Failure α) = .ok value := rfl

@[simp] theorem liftPanic_error (panic : Panic) :
    (liftM (.error panic : Except Panic α) : Except Failure α) = .error (.panicked panic) := rfl

/-- A lifted step that may raise an error succeeds exactly if the step does. -/
@[simp] theorem liftError_eq_ok {result : Except Error α} {value : α} :
    (liftM result : Except Failure α) = .ok value ↔ result = .ok value := by
  cases result <;> simp

/-- A lifted step that may panic succeeds exactly if the step does. -/
@[simp] theorem liftPanic_eq_ok {result : Except Panic α} {value : α} :
    (liftM result : Except Failure α) = .ok value ↔ result = .ok value := by
  cases result <;> simp

/-- A lifted step that may raise an error does not panic. -/
@[simp] theorem liftError_ne_panicked {result : Except Error α} {panic : Panic} :
    (liftM result : Except Failure α) ≠ .error (.panicked panic) := by
  cases result <;> simp

/-- A lifted step that may panic does so exactly if the step does. -/
@[simp] theorem liftPanic_eq_panicked {result : Except Panic α} {panic : Panic} :
    (liftM result : Except Failure α) = .error (.panicked panic) ↔ result = .error panic := by
  cases result <;> simp

end Failure

end ArrayEngine
