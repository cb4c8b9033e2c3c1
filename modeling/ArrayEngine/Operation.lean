import ArrayEngine.DTypeSet
import ArrayEngine.Invocation
import ArrayEngine.Parallel.Workers
import ArrayEngine.Text.Quoted

/-!
# Operations

An operation has an opcode, a name, numbers of inputs and outputs, sets of allowed element types and
a rule that gives the layouts of its outputs. Its work is done by kernels, each of which runs it on
an invocation for one pair of an input and an output type.
-/

namespace ArrayEngine

/-- The text of an opcode. -/
def opcodeText (opcode : Nat) : String :=
  s!"#{opcode}"

/-- Runs an operation of a given opcode on an invocation. -/
abbrev Kernel := Workers → Nat → Update Invocation

/-- Gives the layouts of the outputs for an opcode, the layouts of the inputs and the parameters. -/
abbrev LayoutRule := Nat → List Layout → Params → Except Error (List Layout)

/-- What is known of an operation apart from its kernels. -/
structure Operation where
  opcode : Nat
  name : String
  inferLayouts : LayoutRule
  inputCount : Nat := 1
  outputCount : Nat := 1
  /-- The outputs may be the inputs. -/
  inPlace : Bool := false
  inputTypes : DTypeSet := .any
  outputTypes : DTypeSet := .any

namespace Operation

/-- The pair of types is within the allowed types. -/
def allows (operation : Operation) (input output : DType) : Bool :=
  operation.inputTypes.contains input && operation.outputTypes.contains output

/-- The operation has no kernel for a pair of types. -/
def unsupported (operation : Operation) (input output : DType) : Error :=
  .noKernel operation.name operation.opcode input output

/-- Fails unless the number of inputs is right. Too few inputs are blamed on the first missing slot,
too many on the first superfluous one. -/
def checkInputCount (operation : Operation) (given : Nat) : Except Error Unit :=
  if given = operation.inputCount then .ok ()
  else
    .error (.invalidSlot (min given operation.inputCount)
      s!"'{operation.name}' expects {operation.inputCount} inputs, got {given}")

/-- The operation as messages show it. -/
def describe (operation : Operation) : String :=
  Text.record "OpDescriptor"
    [("opcode", s!"OpCode({operation.opcode})"),
     ("name", Text.quoted operation.name),
     ("num_inputs", toString operation.inputCount),
     ("num_outputs", toString operation.outputCount),
     ("in_place", Text.truth operation.inPlace),
     ("input_types", operation.inputTypes.describe),
     ("output_types", operation.outputTypes.describe)]

/-- Puts an operation at the end of a list, in place of one with the same opcode. -/
def insert (operation : Operation) (operations : List Operation) : List Operation :=
  operations.filter (·.opcode ≠ operation.opcode) ++ [operation]

end Operation

end ArrayEngine
