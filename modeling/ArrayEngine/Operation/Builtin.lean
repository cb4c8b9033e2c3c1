import ArrayEngine.Operation.Executor
import ArrayEngine.Reduction.Catalogue
import ArrayEngine.Reduction.Engine

/-!
# The built-in operations

The reductions have the opcodes of the catalogue; the conversions to a fixed type and the copy have
opcodes from 1000 on. `Registry.builtin` holds them all, with kernels for the element types that the
machine computes with.
-/

namespace ArrayEngine

namespace Kernel

/-- Writes the elements of an array, converted from one type to another, in the order of the
layouts. Between equal types this is a copy, in whatever type the source has. -/
def convertInto (platform : Platform) (input output : DType) (source : Tensor) : Update Tensor :=
  if input = output then Tensor.copyFrom platform source
  else fun tensor ↦
    match source.toList? input with
    | .error error => .error error tensor
    | .ok elements => Tensor.write (elements.map (Scalar.convert platform output)) tensor

/-- A kernel that fills the first output from the first input. In place there is nothing to do. -/
def transfer (fill : Workers → Tensor → Update Tensor) : Kernel := fun workers _ invocation ↦
  match invocation.slotPair 0 with
  | .error error => .error error invocation
  | .ok (.aliased _) => .ok () invocation
  | .ok (.separate input _) => Invocation.updateOutput 0 (fill workers input) invocation

/-- The conversion between two types of numbers. -/
def convert (input output : DType) : Kernel :=
  transfer fun workers ↦ convertInto workers.platform input output

/-- The conversion of truth values, of one byte each: a byte that differs from zero becomes one. -/
def convertTruth (output : DType) : Kernel :=
  transfer fun _ source tensor ↦
    let bytes := gather source.storage.toBytes.toArray source.layout.offsets
    Tensor.write
      (bytes.map fun byte ↦ if byte ≠ 0 then Scalar.one output else Scalar.zero output)
      tensor

/-- The copy of elements of one type. -/
def assign (dtype : DType) : Kernel :=
  transfer fun _ source tensor ↦
    match source.toList? dtype with
    | .error error => .error error tensor
    | .ok elements => Tensor.write elements tensor

/-- The reduction of the first input to the first output by a strategy. If no axis is reduced, the
elements are converted. -/
def reduceWith {input output : DType} {β : Type}
    (strategy : Strategy (Scalar input) β (Scalar output)) : Kernel :=
  fun workers opcode invocation ↦
    match invocation.input 0 with
    | .error error => .error error invocation
    | .ok source =>
        let axes := Reduction.resolveAxes invocation.params.axes source.layout.rank
        match source.layout.splitAlong axes with
        | .error error => .error error invocation
        | .ok .elements => convert input output workers opcode invocation
        | .ok split =>
            match source.storage.cells? input with
            | .error error => .error error invocation
            | .ok cells =>
                let results := reduceAlong workers strategy cells source.layout none split
                Invocation.updateOutput 0 (Tensor.write results) invocation

/-- The reduction that an opcode stands for, by an accumulator in double precision. -/
def reduce (input output : DType) : Kernel := fun workers opcode invocation ↦
  match Reduction.ofOpcode opcode with
  | .error error => .error error invocation
  | .ok reduction =>
      reduceWith (reduction.strategy workers.platform input output) workers opcode invocation

/-- The reduction that an opcode stands for, by an accumulator in the integer type of the
elements. -/
def reduceInts (dtype : DType) : Kernel := fun workers opcode invocation ↦
  match Reduction.ofOpcode opcode with
  | .error error => .error error invocation
  | .ok reduction =>
      match reduction.intStrategy? dtype with
      | none => .error reduction.noIntegerAccumulator invocation
      | some strategy => reduceWith strategy workers opcode invocation

end Kernel

namespace Reduction

/-- The layouts of the result of a reduction. -/
def inferLayouts : LayoutRule := fun opcode inputs params ↦ do
  let reduction ← ofOpcode opcode
  match inputs with
  | [] => throw (.invalidSlot 0 "reduction needs an input")
  | input :: _ =>
      let axes := resolveAxes params.axes input.rank
      let _ ← Layout.axisMask axes input.rank
      let dtype := params.dtype.getD (reduction.defaultOutput input.dtype)
      pure [.packed (outputExtents input.extents axes params.keepDims) .rowMajor dtype]

/-- The reduction as an operation. -/
def toOperation (reduction : Reduction) : Operation where
  opcode := reduction.opcode
  name := reduction.name
  inferLayouts := inferLayouts
  inPlace := true
  inputTypes := .numeric
  outputTypes := reduction.outputTypes

/-- The kernel of a reduction for a pair of types. -/
def kernel? (reduction : Reduction) (platform : Platform) (input output : DType) :
    Option Kernel :=
  if platform.computes input && platform.computes output then
    match reduction.outputRule with
    | .sameAsInput =>
        if input = output then
          if input.isInt then some (Kernel.reduceInts input)
          else some (Kernel.reduce input output)
        else none
    | .floats => if output.isFloat then some (Kernel.reduce input output) else none
    | .ints => if output.isInt then some (Kernel.reduce input output) else none
  else none

end Reduction

/-- A built-in operation that keeps the shape of its input. -/
inductive Transform where
  | toInt64 | toFloat32 | toFloat64
  | assign
  deriving DecidableEq, Repr

namespace Transform

/-- Every transform, in ascending order of opcodes. -/
def all : List Transform := [toInt64, toFloat32, toFloat64, assign]

/-- The number of the transform as an operation. -/
def opcode : Transform → Nat
  | toInt64 => 1000
  | toFloat32 => 1001
  | toFloat64 => 1002
  | assign => 1003

/-- The transform with this opcode. -/
def ofOpcode? (opcode : Nat) : Option Transform :=
  all.find? fun transform ↦ transform.opcode == opcode

/-- The name of the transform as an operation. -/
def name : Transform → String
  | toInt64 => "to_int64"
  | toFloat32 => "to_float32"
  | toFloat64 => "to_float64"
  | assign => "assign"

/-- The type of the output, if the transform fixes it. -/
def target? : Transform → Option DType
  | toInt64 => some .i64
  | toFloat32 => some .f32
  | toFloat64 => some .f64
  | assign => none

/-- The layout of the output: that of the input without gaps, in the same order. -/
def inferLayouts (transform : Transform) : LayoutRule := fun _ inputs _ ↦
  match inputs with
  | [] => .error (.invalidSlot 0 "op needs an input")
  | input :: _ =>
      .ok [.packed input.extents input.order (transform.target?.getD input.dtype)]

/-- The transform as an operation. -/
def toOperation (transform : Transform) : Operation where
  opcode := transform.opcode
  name := transform.name
  inferLayouts := transform.inferLayouts
  inPlace := true
  inputTypes :=
    match transform.target? with
    | some _ => .any
    | none => .numeric
  outputTypes :=
    match transform.target? with
    | some target => .single target
    | none => .numeric

/-- The kernel of a transform for a pair of types. -/
def kernel? (transform : Transform) (platform : Platform) (input output : DType) :
    Option Kernel :=
  match transform.target? with
  | some target =>
      if output ≠ target then none
      else if input.isBool then some (Kernel.convertTruth output)
      else if platform.computes input then some (Kernel.convert input output)
      else none
  | none =>
      if input = output && platform.computes input then some (Kernel.assign input) else none

end Transform

/-- The built-in operations. -/
def builtinOperations : List Operation :=
  Reduction.all.map Reduction.toOperation ++ Transform.all.map Transform.toOperation

/-- The registry of the built-in operations. -/
def Registry.builtin (platform : Platform) : Registry :=
  { builtinOperations.foldl insert empty with
    kernel? := fun opcode input output ↦
      match Reduction.ofOpcode? opcode with
      | some reduction => reduction.kernel? platform input output
      | none =>
          match Transform.ofOpcode? opcode with
          | some transform => transform.kernel? platform input output
          | none => none }

/-- The built-in operations with three workers on a small machine. -/
def Executor.small : Executor :=
  ⟨.builtin .small, .small⟩

end ArrayEngine
