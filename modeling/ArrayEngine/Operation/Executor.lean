import ArrayEngine.Operation.Registry

/-!
# Running operations

An executor is a registry together with the workers that run its kernels. `runKernel` looks up the
kernel for the types at hand and runs it, and checks nothing else. `run` first checks the invocation
against the operation, infers the layouts of the outputs and allocates those that are not bound;
the invocation stays as it is until all checks have passed. It panics if it needs the type of the
first output of an operation that has none.
-/

namespace ArrayEngine

/-- A registry together with the workers that run its kernels. -/
structure Executor where
  registry : Registry
  workers : Workers

namespace Executor

/-- The kernel of an opcode for a pair of types. -/
def kernelFor (executor : Executor) (opcode : Nat) (input output : DType) :
    Except Error Kernel := do
  let operation ← executor.registry.operation opcode
  (operation.unsupported input output).raiseUnless (operation.allows input output)
  match executor.registry.kernel? opcode input output with
  | some kernel => .ok kernel
  | none => .error (operation.unsupported input output)

/-- Runs the kernel of an opcode for a pair of types on an invocation. -/
def runKernel (executor : Executor) (opcode : Nat) (input output : DType) : Update Invocation :=
  fun invocation ↦
    match executor.kernelFor opcode input output with
    | .error error => .error error invocation
    | .ok kernel => kernel executor.workers opcode invocation

/-- The layouts of the outputs of an opcode for inputs with these layouts. -/
def outputLayouts (executor : Executor) (opcode : Nat) (inputs : List Layout)
    (params : Params) : Except Error (List Layout) := do
  let operation ← executor.registry.operation opcode
  operation.checkInputCount inputs.length
  operation.inferLayouts opcode inputs params

/-- The operation does not run in place. -/
def notInPlace (operation : Operation) : Error :=
  .unmetPrecondition 0 s!"'{operation.name}' cannot run in place"

/-- The rule for layouts gave another number of outputs than the operation has. -/
def wrongOutputCount (operation : Operation) (produced : Nat) : Error :=
  .internal (s!"shape function of '{operation.name}' produced {produced} outputs, " ++
    s!"expected {operation.outputCount}")

/-- The input that is to become an output in place has another layout. -/
def wrongLayout (slot : Nat) (needed actual : Layout) : Error :=
  .unmetPrecondition slot ("in-place output needs layout " ++ needed.describe ++
    " but the input is " ++ actual.describe)

/-- The type of the first of these layouts. An operation without outputs has none. -/
def firstType : List Layout → Except Panic DType
  | [] => .error (.indexOutOfBounds 0 0)
  | layout :: _ => .ok layout.dtype

/-- Fails if an input behind the first one has a type that the operation does not allow. The error
names the type of the first of the inferred layouts. -/
def checkFurtherInputs (operation : Operation) (inferred : List Layout) :
    List Tensor → Except Failure Unit
  | [] => .ok ()
  | tensor :: rest =>
      if operation.inputTypes.contains tensor.dtype then checkFurtherInputs operation inferred rest
      else do
        let output ← firstType inferred
        throw (.raised (operation.unsupported tensor.dtype output))

/-- Fails if the output of a slot cannot have the inferred layout: in place, the input has to have
exactly this layout; otherwise a bound output has to have its extents. -/
def checkOutput (invocation : Invocation) (slot : Nat) (inferred : Layout) : Except Error Unit :=
  if invocation.inPlace then do
    let input ← invocation.input slot
    (wrongLayout slot inferred input.layout).raiseUnless (input.layout = inferred)
  else
    match invocation.boundOutput? slot with
    | none => .ok ()
    | some bound =>
        Error.raiseUnless (.shapeMismatch inferred.extents bound.extents)
          (bound.extents = inferred.extents)

/-- Checks the outputs from a slot on. -/
def checkOutputs (invocation : Invocation) : Nat → List Layout → Except Error Unit
  | _, [] => .ok ()
  | slot, inferred :: rest => do
      checkOutput invocation slot inferred
      checkOutputs invocation (slot + 1) rest

/-- The type of the first output: that of the bound array, or the inferred one. -/
def outputType (invocation : Invocation) (inferred : List Layout) : Except Panic DType :=
  if invocation.inPlace then firstType inferred
  else
    match invocation.boundOutput? 0 with
    | some bound => .ok bound.dtype
    | none => firstType inferred

/-- New arrays for the slots from `slot` on that have no output yet, each with its slot. -/
def allocate (platform : Platform) (invocation : Invocation) :
    Nat → List Layout → Except Error (List (Nat × Tensor))
  | _, [] => .ok []
  | slot, inferred :: rest =>
      match invocation.boundOutput? slot with
      | some _ => allocate platform invocation (slot + 1) rest
      | none => do
          let tensor ← Tensor.zeros platform inferred
          let others ← allocate platform invocation (slot + 1) rest
          pure ((slot, tensor) :: others)

/-- The arrays to bind before a run: none in place, and otherwise one for each missing output. -/
def freshOutputs (platform : Platform) (invocation : Invocation) (layouts : List Layout) :
    Except Error (List (Nat × Tensor)) :=
  if invocation.inPlace then .ok [] else allocate platform invocation 0 layouts

/-- The checks before a run. They give the kernel to run, and the outputs to bind before. -/
def prepare (executor : Executor) (opcode : Nat) (invocation : Invocation) :
    Except Failure (Kernel × List (Nat × Tensor)) := do
  let operation ← executor.registry.operation opcode
  operation.checkInputCount invocation.inputs.length
  (notInPlace operation).raiseUnless (invocation.inPlace → operation.inPlace)
  let layouts ← operation.inferLayouts opcode invocation.inputLayouts invocation.params
  (wrongOutputCount operation layouts.length).raiseUnless (layouts.length = operation.outputCount)
  let input ← invocation.input 0
  checkFurtherInputs operation layouts invocation.inputs.tail
  checkOutputs invocation 0 layouts
  let output ← outputType invocation layouts
  let kernel ← executor.kernelFor opcode input.dtype output
  let fresh ← freshOutputs executor.workers.platform invocation layouts
  pure (kernel, fresh)

/-- The invocation with arrays bound to slots. -/
def bindAll (invocation : Invocation) (outputs : List (Nat × Tensor)) : Invocation :=
  outputs.foldl (fun invocation (slot, tensor) ↦ invocation.bindOutput slot tensor) invocation

/-- Checks an invocation, prepares its outputs and runs an operation on it. -/
def run (executor : Executor) (opcode : Nat) : EStateM Failure Invocation Unit := fun invocation ↦
  match executor.prepare opcode invocation with
  | .error failure => .error failure invocation
  | .ok (kernel, fresh) =>
      (kernel executor.workers opcode).raising (bindAll invocation fresh)

end Executor

end ArrayEngine
