import ArrayEngine.DType
import ArrayEngine.Text.Listing

/-!
# Errors

An operation fails for one of the causes of `Error`. `message` is the text that a user sees,
`category` groups the causes for callers that only ask what kind of failure it is, and `slot?` is
the input to blame, if there is one.
-/

namespace ArrayEngine

/-- The cause of a failure. -/
inductive Error where
  /-- A layout contradicts itself or does not fit. -/
  | invalidShape (reason : String)
  /-- Extents differ from those that are needed. -/
  | shapeMismatch (expected got : List Nat)
  /-- There is no such axis. -/
  | invalidAxis (axis rank : Nat)
  /-- An argument has no meaning. -/
  | invalidArgument (argument reason : String)
  /-- An input or output is missing, or there are too many. -/
  | invalidSlot (slot : Nat) (reason : String)
  /-- The operation does not exist for this element type. -/
  | unsupportedType (dtype : DType) (operation : String)
  /-- The element type is not the one that was declared. -/
  | typeMismatch (declared actual : DType)
  /-- The operation has no kernel for this pair of types. -/
  | noKernel (operation : String) (opcode : Nat) (input output : DType)
  /-- An input lacks a property that the operation relies on. -/
  | unmetPrecondition (slot : Nat) (reason : String)
  /-- No operation has this opcode. -/
  | unknownOperation (opcode : Nat)
  /-- A buffer could not be obtained. -/
  | outOfMemory (bytes : Nat)
  /-- Something that the library promises does not hold. -/
  | internal (detail : String)
  deriving DecidableEq, Repr

namespace Error

/-- The kinds of failure. -/
inductive Category where
  | shape | argument | typeCombination | precondition | allocation | internal
  deriving DecidableEq, Repr

/-- The kind of failure that a cause belongs to. -/
def category : Error → Category
  | invalidShape _ | shapeMismatch _ _ => .shape
  | invalidAxis _ _ | invalidArgument _ _ | invalidSlot _ _ | typeMismatch _ _
  | unknownOperation _ => .argument
  | unsupportedType _ _ | noKernel _ _ _ _ => .typeCombination
  | unmetPrecondition _ _ => .precondition
  | outOfMemory _ => .allocation
  | internal _ => .internal

/-- The slot to which the failure refers. -/
def slot? : Error → Option Nat
  | invalidSlot slot _ | unmetPrecondition slot _ => some slot
  | _ => none

/-- Fails with this error unless a condition holds. -/
def raiseUnless (error : Error) (condition : Prop) [Decidable condition] : Except Error Unit :=
  if condition then .ok () else .error error

/-- There is no failure exactly when the condition holds. -/
@[simp] theorem raiseUnless_eq_ok {error : Error} {condition : Prop} [Decidable condition]
    {done : Unit} : error.raiseUnless condition = .ok done ↔ condition := by
  unfold raiseUnless
  split <;> simp_all

/-- The text of the failure. -/
def message : Error → String
  | invalidShape reason => "Invalid shape: " ++ reason
  | shapeMismatch expected got =>
      "Shape mismatch: expected " ++ Text.bracketed expected ++ ", got " ++ Text.bracketed got
  | invalidAxis axis rank => s!"Invalid dimension {axis} for array with {rank} dimensions"
  | invalidArgument argument reason => s!"Invalid argument '{argument}': {reason}"
  | invalidSlot slot reason => s!"Invalid input at slot {slot}: {reason}"
  | unsupportedType dtype operation =>
      s!"Unsupported dtype {dtype.label} for operation '{operation}'"
  | typeMismatch declared actual => s!"DType mismatch: {declared.label} vs {actual.label}"
  | noKernel operation opcode input output =>
      s!"Unsupported type combination for op '{operation}' (#{opcode}): " ++
        s!"{input.label} -> {output.label}"
  | unmetPrecondition slot reason => s!"Unsupported precondition at slot {slot}: {reason}"
  | unknownOperation opcode => s!"Unknown opcode #{opcode}"
  | outOfMemory bytes => s!"Out of memory: failed to allocate {bytes} bytes"
  | internal detail => "Internal error: " ++ detail

end Error

/-- Two steps in a row succeed exactly when both do. -/
theorem bind_eq_ok {ε α β : Type} {first : Except ε α} {second : α → Except ε β} {result : β} :
    (first >>= second) = .ok result ↔ ∃ value, first = .ok value ∧ second value = .ok result := by
  cases first <;> simp [bind, Except.bind]

/-- Two steps in a row fail exactly when one of them does. -/
theorem bind_eq_error {ε α β : Type} {first : Except ε α} {second : α → Except ε β} {error : ε} :
    (first >>= second) = .error error ↔
      first = .error error ∨ ∃ value, first = .ok value ∧ second value = .error error := by
  cases first <;> simp [bind, Except.bind]

end ArrayEngine
