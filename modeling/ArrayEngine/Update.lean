import ArrayEngine.Failure

/-!
# Changes of state that may fail

`Update σ` is a change of a state of type `σ`. It ends in success or in an error, and either way it
says which state it leaves behind: a failed change may have done part of its work. A change that may
also panic fails with a `Failure` in place of an error.
-/

namespace ArrayEngine

variable {ε σ : Type}

/-- A change of a state that may raise an error. The state left behind belongs to the result either
way. -/
abbrev Update (σ : Type) := EStateM Error σ Unit

/-- Behind an action that succeeds, the next one goes on from what is left. -/
theorem bind_of_ok {α β : Type} {action : EStateM ε σ α} {next : α → EStateM ε σ β}
    {state left : σ} {result : α} (h : action state = .ok result left) :
    (action >>= next) state = next result left := by
  show EStateM.bind action next state = _
  simp only [EStateM.bind, h]

/-- Behind an action that fails, nothing is done. -/
theorem bind_of_error {α β : Type} {action : EStateM ε σ α} {next : α → EStateM ε σ β}
    {state left : σ} {error : ε} (h : action state = .error error left) :
    (action >>= next) state = .error error left := by
  show EStateM.bind action next state = _
  simp only [EStateM.bind, h]

namespace Update

/-- The change that fails at once and leaves the state as it is. -/
def fail (error : Error) : Update σ := fun state ↦ .error error state

/-- The state that a change leaves behind. -/
def after (update : EStateM ε σ Unit) (state : σ) : σ :=
  match update state with
  | .ok _ left => left
  | .error _ left => left

/-- The change as one of those that may also panic. -/
def raising (update : Update σ) : EStateM Failure σ Unit := fun state ↦
  match update state with
  | .ok _ left => .ok () left
  | .error error left => .error (.raised error) left

variable {update : Update σ} {state left : σ}

@[simp] theorem raising_eq_ok_iff :
    update.raising state = .ok () left ↔ update state = .ok () left := by
  unfold raising
  cases update state <;> simp

@[simp] theorem raising_eq_error_iff {failure : Failure} :
    update.raising state = .error failure left ↔
      ∃ error, failure = .raised error ∧ update state = .error error left := by
  unfold raising
  cases update state with
  | ok _ _ => simp
  | error cause reached =>
      simp only [EStateM.Result.error.injEq]
      constructor
      · rintro ⟨rfl, rfl⟩
        exact ⟨cause, rfl, rfl, rfl⟩
      · rintro ⟨_, rfl, rfl, rfl⟩
        exact ⟨rfl, rfl⟩

@[simp] theorem after_raising (update : Update σ) : after update.raising = after update := by
  funext state
  unfold after raising
  cases update state <;> rfl

end Update

end ArrayEngine
