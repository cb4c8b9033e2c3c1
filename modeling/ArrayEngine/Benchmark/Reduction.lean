import ArrayEngine.Benchmark.Harness
import ArrayEngine.Operation.Executor

/-!
# Benchmarks of reductions

A reduction is benchmarked on an array of made-up numbers. Setting up builds the array and binds the
outputs, so that a run is nothing but the execution of the operation.
-/

namespace ArrayEngine.Benchmark

/-- The `i`-th made-up number: a multiple of a tenth below ten. -/
def syntheticNumber (i : Nat) : Float :=
  ((i * 17 + 3) % 100).toFloat / 10

/-- An array of made-up numbers, of a type that can be computed with. -/
def syntheticTensor (platform : Platform) (dtype : DType) (extents : List Nat) :
    Except Error Tensor := do
  platform.require dtype "benchmark_input"
  let values := (List.range (Size.product extents)).map fun i ↦
    Scalar.ofFloat platform dtype (syntheticNumber i)
  Tensor.ofList platform values extents

/-- An invocation with arrays bound to the slots from `slot` on. -/
def bindZeros (platform : Platform) : Nat → List Layout → Invocation → Except Error Invocation
  | _, [], invocation => .ok invocation
  | slot, layout :: rest, invocation => do
      let tensor ← Tensor.zeros platform layout
      bindZeros platform (slot + 1) rest (invocation.bindOutput slot tensor)

/-- The invocation of a reduction of made-up numbers, with its outputs bound. -/
def reductionInvocation (executor : Executor) (opcode : Nat) (dtype : DType)
    (extents : List Nat) (axes : Option (List Nat)) : Except Error Invocation := do
  let platform := executor.workers.platform
  let params : Params := { axes }
  let input ← syntheticTensor platform dtype extents
  let layouts ← executor.outputLayouts opcode [input.layout] params
  bindZeros platform 0 layouts { inputs := [input], params }

/-- The benchmark of a reduction of made-up numbers. Its state is the invocation, once it is set up.
It takes no times of its own. -/
def ofReduction (executor : Executor) (opcode : Nat) (dtype : DType) (extents : List Nat)
    (axes : Option (List Nat)) : Benchmark (Option Invocation) where
  opcode _ := opcode
  dtype _ := dtype
  extents _ := extents
  setUp state :=
    match reductionInvocation executor opcode dtype extents axes with
    | .error error => .error (.raised error) state
    | .ok invocation => .ok () (some invocation)
  run state :=
    match state with
    | none => .error (.raised (.internal "benchmark input not prepared")) none
    | some invocation =>
        match executor.run opcode invocation with
        | .error failure left => .error failure (some left)
        | .ok _ left =>
            match left.output 0 with
            | .error error => .error (.raised error) (some left)
            | .ok _ => .ok 0 (some left)

end ArrayEngine.Benchmark
