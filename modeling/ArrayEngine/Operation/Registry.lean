import ArrayEngine.Operation

/-!
# Registries

A registry holds operations, a table of their names, and for each of them the kernels for pairs of
an input and an output type. Opcodes and names are unique, and a kernel belongs to an operation that
allows its types. The operations are held in no particular order and are sorted when they are
listed, and so are the pairs of types of an operation.
-/

namespace ArrayEngine

/-- Operations and their kernels. -/
structure Registry where
  /-- The operations, in no particular order. -/
  operations : List Operation
  /-- The opcode of the operation with this name. -/
  opcodeOf? : String → Option Nat
  /-- The kernel of an opcode for an input type and an output type. -/
  kernel? : Nat → DType → DType → Option Kernel

namespace Registry

/-- The registry without operations. -/
def empty : Registry where
  operations := []
  opcodeOf? _ := none
  kernel? _ _ _ := none

/-- The operation with this opcode. -/
def operation? (registry : Registry) (opcode : Nat) : Option Operation :=
  registry.operations.find? fun operation ↦ operation.opcode == opcode

/-- The operation with this opcode, or an error if there is none. -/
def operation (registry : Registry) (opcode : Nat) : Except Error Operation :=
  match registry.operation? opcode with
  | some operation => .ok operation
  | none => .error (.unknownOperation opcode)

/-- Another operation has the opcode. -/
def opcodeTaken (opcode : Nat) (name : String) : Error :=
  .invalidArgument "opcode" s!"#{opcode} is already registered as '{name}'"

/-- Another operation has the name. -/
def nameTaken (name : String) : Error :=
  .invalidArgument "name" s!"an op named '{name}' is already registered"

/-- The registry with an operation, in place of one with the same opcode. No check is made. -/
def insert (registry : Registry) (operation : Operation) : Registry where
  operations := operation.insert registry.operations
  opcodeOf? name :=
    if name = operation.name then some operation.opcode else registry.opcodeOf? name
  kernel? := registry.kernel?

/-- Adds an operation. Its opcode and its name must both be free. -/
def register (operation : Operation) : Update Registry := fun registry ↦
  match registry.operation? operation.opcode with
  | some existing => .error (opcodeTaken operation.opcode existing.name) registry
  | none =>
      match registry.opcodeOf? operation.name with
      | some _ => .error (nameTaken operation.name) registry
      | none => .ok () (registry.insert operation)

/-- The kernels with one of them replaced. -/
def setKernel (kernels : Nat → DType → DType → Option Kernel) (opcode : Nat)
    (input output : DType) (kernel : Kernel) : Nat → DType → DType → Option Kernel :=
  fun opcode' input' output' ↦
    if opcode' = opcode ∧ input' = input ∧ output' = output then some kernel
    else kernels opcode' input' output'

/-- Adds a kernel for a pair of types, in place of an earlier one. The operation must exist and
allow the types. -/
def registerKernel (opcode : Nat) (input output : DType) (kernel : Kernel) : Update Registry :=
  fun registry ↦
    match registry.operation? opcode with
    | none => .error (.unknownOperation opcode) registry
    | some operation =>
        if operation.allows input output then
          .ok () { registry with
            kernel? := setKernel registry.kernel? opcode input output kernel }
        else .error (operation.unsupported input output) registry

/-- The operations in ascending order of opcodes. -/
def descriptors (registry : Registry) : List Operation :=
  registry.operations.mergeSort fun first second ↦ first.opcode ≤ second.opcode

/-- The order of pairs of types: by the tag of the input, and then by that of the output. -/
def pairLE (first second : DType × DType) : Bool :=
  first.1.tag < second.1.tag || first.1.tag == second.1.tag && first.2.tag ≤ second.2.tag

/-- The pairs of types for which an opcode has a kernel, in ascending order of tags. -/
def typePairs (registry : Registry) (opcode : Nat) : List (DType × DType) :=
  let pairs := DType.all.flatMap fun input ↦ DType.all.map fun output ↦ (input, output)
  (pairs.filter fun (input, output) ↦
    (registry.kernel? opcode input output).isSome).mergeSort pairLE

/-- The number of operations. -/
def size (registry : Registry) : Nat :=
  registry.operations.length

/-- The number of kernels of all operations. -/
def kernelCount (registry : Registry) : Nat :=
  registry.operations.foldl
    (fun count operation ↦ count + (registry.typePairs operation.opcode).length) 0

/-- The registry as messages show it. -/
def describe (registry : Registry) : String :=
  Text.record "OpRegistry"
    [("ops", toString registry.size), ("kernels", toString registry.kernelCount)]

end Registry

end ArrayEngine
