import ArrayEngine.Proofs.Operation.Parameters
import ArrayEngine.Proofs.Operation.Writes

/-!
# Two ways to ask for the type of a result

The type of the result of a reduction can be requested as a parameter, or it can be that of an array
which the caller binds as the output. In the first case the kernel is chosen for the type of the
inferred layout, in the second for that of the array, whatever type is inferred.
`run_requested_type` says that the two ways agree if the bound array is the one that would have been
made: both runs fail with the same error, or both leave the same output.
-/

namespace ArrayEngine

open Layout Reduction

namespace Kernel

variable {workers : Workers} {opcode : Nat} {invocation : Invocation} {params : Params}
  {blank : Tensor} {input output : DType} {β : Type}

/-- With parameters that split the input alike, a reduction fails alike, or fills the array that is
bound for its result with the same elements. -/
theorem raising_fails_or_fills {kernel : Kernel}
    {strategy : Strategy (Scalar input) β (Scalar output)}
    (heq : kernel workers opcode = reduceWith strategy workers opcode)
    (hplace : invocation.inPlace = false) (hsplit : invocation.SplitsAlike params) :
    (∃ error left left',
      (kernel workers opcode).raising (invocation.bindOutput 0 blank) =
          .error (.raised error) left ∧
        (kernel workers opcode).raising ((invocation.withParams params).bindOutput 0 blank) =
          .error (.raised error) left') ∨
      ∃ filled, filled.layout = blank.layout ∧
        (kernel workers opcode).raising (invocation.bindOutput 0 blank) =
          .ok () (invocation.bindOutput 0 filled) ∧
        (kernel workers opcode).raising ((invocation.withParams params).bindOutput 0 blank) =
          .ok () ((invocation.withParams params).bindOutput 0 filled) := by
  rw [heq]
  simp only [Update.raising, reduceWith_bindOutput_withParams strategy hsplit]
  cases hresult : reduceWith strategy workers opcode (invocation.bindOutput 0 blank) with
  | error error left =>
      exact .inl ⟨error, left, left.withParams params, rfl, rfl⟩
  | ok _ after =>
      obtain ⟨_, values, hwrites⟩ := exists_writes_of_reduceWith hplace hresult
      obtain ⟨filled, hwrite, rfl⟩ := hwrites.exists_write hplace hresult
      exact .inr ⟨filled, Tensor.layout_of_write hwrite, rfl, rfl⟩

end Kernel

namespace Executor

variable {platform : Platform} {workers : Workers} {reduction : Reduction} {tensor blank : Tensor}
  {outputs : List (Option Tensor)} {params : Params} {axes : Option (List Nat)} {keepDims : Bool}
  {dtype : Option DType} {requested : DType} {mask : List Bool}

/-- The layout that is inferred if the axes can be marked. -/
theorem outputLayouts_reduction
    (hmask : axisMask (resolveAxes params.axes tensor.layout.rank) tensor.layout.rank = .ok mask) :
    (Executor.mk (.builtin platform) workers).outputLayouts reduction.opcode [tensor.layout]
      params = .ok [reduction.outputLayout tensor.layout params] := by
  have hlayouts : inferLayouts reduction.opcode [tensor.layout] params =
      .ok [reduction.outputLayout tensor.layout params] :=
    inferLayouts_eq_ok_iff.mpr ⟨⟨mask, hmask⟩, rfl⟩
  exact bind_eq_ok.mpr ⟨reduction.toOperation, Registry.operation_builtin platform reduction,
    bind_eq_ok.mpr ⟨(), rfl, hlayouts⟩⟩

/-- If the axes can be marked and nothing is wrong with the output, the checks depend on whether
there is a kernel. -/
theorem prepare_eq_map {fresh : List (Nat × Tensor)}
    (hmask : axisMask (resolveAxes params.axes tensor.layout.rank) tensor.layout.rank = .ok mask)
    (hcheck : checkOutput ⟨[tensor], outputs, params, false⟩ 0
      (reduction.outputLayout tensor.layout params) = .ok ())
    (htype : outputType ⟨[tensor], outputs, params, false⟩
      [reduction.outputLayout tensor.layout params] = .ok requested)
    (hfresh : freshOutputs workers.platform ⟨[tensor], outputs, params, false⟩
      [reduction.outputLayout tensor.layout params] = .ok fresh) :
    (Executor.mk (.builtin platform) workers).prepare reduction.opcode
        ⟨[tensor], outputs, params, false⟩ =
      (liftM ((Executor.mk (.builtin platform) workers).kernelFor reduction.opcode tensor.dtype
        requested) : Except Failure Kernel).map (·, fresh) := by
  rw [prepare_reduction, hmask]
  show (liftM (checkOutput _ _ _) : Except Failure _) >>= _ = _
  rw [hcheck]
  show (liftM (outputType _ _) : Except Failure _) >>= _ = _
  rw [htype]
  show (liftM (kernelFor _ _ _ _) : Except Failure _) >>= _ = _
  cases (Executor.mk (.builtin platform) workers).kernelFor reduction.opcode tensor.dtype
      requested with
  | error error => rfl
  | ok kernel =>
      show (liftM (freshOutputs _ _ _) : Except Failure _) >>= _ = _
      rw [hfresh]
      rfl

section

variable
  (hmask : axisMask (resolveAxes axes tensor.layout.rank) tensor.layout.rank = .ok mask)
  (hblank : Tensor.zeros workers.platform (packed
    (outputExtents tensor.extents (resolveAxes axes tensor.layout.rank) keepDims) .rowMajor
    requested) = .ok blank)

include hmask hblank

/-- If a type is requested and no output is bound, the checks choose the kernel for this type and
make the output. -/
theorem prepare_requested (hfree : (outputs[0]?).join = none) :
    (Executor.mk (.builtin platform) workers).prepare reduction.opcode
        ⟨[tensor], outputs, ⟨axes, keepDims, some requested⟩, false⟩ =
      (liftM ((Executor.mk (.builtin platform) workers).kernelFor reduction.opcode tensor.dtype
        requested) : Except Failure Kernel).map (·, [(0, blank)]) := by
  have hbound : Invocation.boundOutput?
      ⟨[tensor], outputs, ⟨axes, keepDims, some requested⟩, false⟩ 0 = none := hfree
  refine prepare_eq_map hmask ?_ (outputType_of_free rfl hbound _ []) ?_
  · simp only [checkOutput, hbound, Bool.false_eq_true, if_false]
  · rw [freshOutputs, if_neg (by simp), allocate, hbound]
    exact bind_eq_ok.mpr ⟨blank, hblank, rfl⟩

/-- If an array of zeros is bound, the checks choose the kernel for the type of this array. -/
theorem prepare_bound :
    (Executor.mk (.builtin platform) workers).prepare reduction.opcode
        (Invocation.bindOutput ⟨[tensor], outputs, ⟨axes, keepDims, dtype⟩, false⟩ 0 blank) =
      (liftM ((Executor.mk (.builtin platform) workers).kernelFor reduction.opcode tensor.dtype
        requested) : Except Failure Kernel).map (·, []) := by
  obtain ⟨bound, hbind⟩ : ∃ bound,
      Invocation.bindOutput ⟨[tensor], outputs, ⟨axes, keepDims, dtype⟩, false⟩ 0 blank =
        ⟨[tensor], bound, ⟨axes, keepDims, dtype⟩, false⟩ := ⟨_, rfl⟩
  have hbound : Invocation.boundOutput? ⟨[tensor], bound, ⟨axes, keepDims, dtype⟩, false⟩ 0 =
      some blank := hbind ▸ Invocation.boundOutput?_bindOutput _ 0 blank
  have hextents : blank.extents =
      outputExtents tensor.extents (resolveAxes axes tensor.layout.rank) keepDims := by
    rw [Tensor.zeros_eq_ok hblank]
    rfl
  have hdtype : blank.dtype = requested := by
    rw [Tensor.zeros_eq_ok hblank]
    rfl
  rw [hbind]
  refine prepare_eq_map hmask ?_ ?_ ?_
  · simp only [checkOutput, hbound, Bool.false_eq_true, if_false]
    exact Error.raiseUnless_eq_ok.mpr hextents
  · rw [← hdtype]
    exact outputType_of_bound rfl hbound _
  · simp only [freshOutputs, allocate, hbound, Bool.false_eq_true, if_false]

end

/-- Requesting a type and binding an array of zeros of this type come to the same, for every array,
all axes and all types. If the array that is bound has the inferred extents and is row-major and
without gaps, both runs fail with the same error, whatever type is requested in the second one, or
both leave the same output, which has the layout of the bound array. If no extents can be inferred,
both runs fail with the same error whichever array is bound. -/
theorem run_requested_type (platform : Platform) (workers : Workers) (reduction : Reduction)
    (tensor : Tensor) (axes : Option (List Nat)) (keepDims : Bool) (dtype : Option DType)
    {extents : List Nat} (hfree : (outputs[0]?).join = none)
    (hblank : Tensor.zeros workers.platform (packed extents .rowMajor requested) = .ok blank)
    (hextents : ∀ layout, (Executor.mk (.builtin platform) workers).outputLayouts reduction.opcode
      [tensor.layout] ⟨axes, keepDims, dtype⟩ = .ok [layout] → layout.extents = extents) :
    (∃ error left left',
      (Executor.mk (.builtin platform) workers).run reduction.opcode
          ⟨[tensor], outputs, ⟨axes, keepDims, some requested⟩, false⟩ =
            .error (.raised error) left ∧
        (Executor.mk (.builtin platform) workers).run reduction.opcode
            (Invocation.bindOutput ⟨[tensor], outputs, ⟨axes, keepDims, dtype⟩, false⟩ 0 blank) =
          .error (.raised error) left') ∨
      ∃ output, output.layout = packed extents .rowMajor requested ∧
        (Executor.mk (.builtin platform) workers).run reduction.opcode
            ⟨[tensor], outputs, ⟨axes, keepDims, some requested⟩, false⟩ =
          .ok () (Invocation.bindOutput
            ⟨[tensor], outputs, ⟨axes, keepDims, some requested⟩, false⟩ 0 output) ∧
        (Executor.mk (.builtin platform) workers).run reduction.opcode
            (Invocation.bindOutput ⟨[tensor], outputs, ⟨axes, keepDims, dtype⟩, false⟩ 0 blank) =
          .ok () (Invocation.bindOutput
            ⟨[tensor], outputs, ⟨axes, keepDims, dtype⟩, false⟩ 0 output) := by
  have hlayout : blank.layout = packed extents .rowMajor requested := by
    rw [Tensor.zeros_eq_ok hblank]
  cases hmask : axisMask (resolveAxes axes tensor.layout.rank) tensor.layout.rank with
  | error error =>
      exact .inl ⟨error, _, _, run_of_axisMask_error hmask, run_of_axisMask_error hmask⟩
  | ok mask =>
      obtain rfl : outputExtents tensor.extents (resolveAxes axes tensor.layout.rank) keepDims =
          extents := hextents _ (outputLayouts_reduction hmask)
      -- Both checks depend on the same kernel now.
      rw [run, run, prepare_requested hmask hblank hfree, prepare_bound hmask hblank]
      cases hkernel : (Executor.mk (.builtin platform) workers).kernelFor reduction.opcode
          tensor.dtype requested with
      | error error => exact .inl ⟨error, _, _, rfl, rfl⟩
      | ok kernel =>
          obtain ⟨_, _, _, hregistered⟩ := kernelFor_eq_ok_iff.mp hkernel
          rw [Registry.kernel?_builtin] at hregistered
          obtain ⟨β, strategy, heq⟩ := exists_reduceWith_of_kernel? workers hregistered
          rw [← hlayout]
          exact Kernel.raising_fails_or_fills heq rfl fun _ _ ↦ rfl

/-- Two rows of bytes. -/
def byteRows : Tensor :=
  ⟨packed [2, 2] .rowMajor .i8, ⟨.i8, #[⟨1⟩, ⟨2⟩, ⟨3⟩, ⟨4⟩]⟩⟩

/-- A row of zeros. -/
def zeroRow : Tensor :=
  ⟨packed [2] .rowMajor .i8, ⟨.i8, #[⟨0⟩, ⟨0⟩]⟩⟩

/-- The sums of the columns, in this type. -/
def byteSums (dtype : DType) (outputs : List (Option Tensor)) : Invocation :=
  ⟨[byteRows], outputs, ⟨some [0], false, some dtype⟩, false⟩

/-- In the second run another type is requested, for which there would be no kernel, but the array
that is bound holds bytes. -/
theorem run_requested_type_overridden :
    Tensor.zeros .small zeroRow.layout = .ok zeroRow ∧
      Executor.small.outputLayouts Reduction.sum.opcode [byteRows.layout]
          ⟨some [0], false, some .f32⟩ =
        .ok [packed [2] .rowMajor .f32] ∧
      ∃ output, output.layout = zeroRow.layout ∧
        Executor.small.run Reduction.sum.opcode (byteSums .i8 []) =
          .ok () (byteSums .i8 [some output]) ∧
        Executor.small.run Reduction.sum.opcode (byteSums .f32 [some zeroRow]) =
          .ok () (byteSums .f32 [some output]) := by
  have hblank : Tensor.zeros .small zeroRow.layout = .ok zeroRow := rfl
  have hinferred :
      Executor.small.outputLayouts Reduction.sum.opcode [byteRows.layout]
          ⟨some [0], false, some .f32⟩ =
        .ok [packed [2] .rowMajor .f32] := rfl
  refine ⟨hblank, hinferred, ?_⟩
  have hextents : ∀ layout,
      Executor.small.outputLayouts Reduction.sum.opcode [byteRows.layout]
          ⟨some [0], false, some .f32⟩ =
        .ok [layout] → layout.extents = [2] := by
    intro layout hlayout
    cases hinferred.symm.trans hlayout
    rfl
  have hfree : (([] : List (Option Tensor))[0]?).join = none := rfl
  have hagree := run_requested_type .small .small .sum byteRows (some [0]) false (some .f32) hfree
    hblank hextents
  rcases hagree with ⟨_, _, _, hfails, -⟩ | hsucceeds
  · cases hfails
  · exact hsucceeds

end Executor

end ArrayEngine
